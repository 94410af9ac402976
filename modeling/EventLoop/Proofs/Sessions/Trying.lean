import EventLoop.Proofs.Host.Descriptors
import EventLoop.Proofs.Registration.Tenancy
import EventLoop.Proofs.Slab.Issue
import EventLoop.Sessions

/-!
# Which key a session gets

A session is tried under one key after the other, in the order in which its
table issues them.  A key that the loop holds is a clash, and is withdrawn; the
first that it does not hold decides: the session is registered under it, or the
attempt ends.  So what adding a session answers, and what it leaves of the
table, can be said without the attempts.

## Main definitions

* `Slab.Taken n o s t` — the table `t` is the table `s` without the first `n`
  keys of its order, and with the entry `o` under the next, if there is one.

## Main results

* `Evented.registerAt_of_registered` — a token that the loop holds is a clash.
* `Evented.registerAt_note` — what was said before does not matter.
* `Sessions.add_reaches` — **the first key that is not held decides.**
-/

namespace EventLoop

/-! ### Clashes -/

/-- What was said does not matter to a multiplexer. -/
theorem Host.control_note (h : Host) (n : Notice) (poller fd : Option Nat) (c : Control) :
    (h.note n).control poller fd c = (h.control poller fd c).map (·.note n) := by
  unfold Host.control
  cases poller with
  | none => rfl
  | some p =>
    cases fd with
    | none => rfl
    | some f =>
      simp only [Host.object?_note]
      rcases h.object? p with _ | op
      · rfl
      rcases h.object? f with _ | of
      · rfl
      cases of with
      | file => rfl
      | _ =>
        cases op with
        | multiplexer watches =>
          dsimp only
          split
          · rfl
          · cases c.apply watches f <;> rfl
        | _ => rfl

namespace Loop

variable {l : Loop} {token : Token}

/-- **A token that the loop holds is a clash**, and nothing changes. -/
theorem registerAt_of_registered (h : l.system.isRegistered token = true) (fd : Option Nat)
    (i : Interest) : ∃ f, l.registerAt fd token i = (.error f, l) ∧ f.isClash = true := by
  unfold registerAt
  by_cases hsys : token = systemToken
  · rw [if_pos hsys]
    exact ⟨_, rfl, rfl⟩
  · have hins : l.system.table.insertAt token ⟨fd, i⟩ = .error (.taken token) := by
      rw [Slab.insertAt]
      exact if_pos h
    rw [if_neg hsys, hins]
    exact ⟨_, rfl, rfl⟩

theorem registerAt_note (l : Loop) (n : Notice) (fd : Option Nat) (token : Token) (i : Interest) :
    (l.note n).registerAt fd token i
      = ((l.registerAt fd token i).1, (l.registerAt fd token i).2.note n) := by
  unfold registerAt
  split
  · rfl
  · rw [system_note]
    cases l.system.table.insertAt token ⟨fd, i⟩ with
    | error refusal => rfl
    | ok table =>
      -- a notice changes no descriptor, so the multiplexer answers the same
      have hadd : l.system.poller.add fd token i (l.note n).host
          = (l.system.poller.add fd token i l.host).map (·.note n) := by
        show ((l.host.note n).control _ fd _).mapError _ = _
        rw [Host.control_note]
        unfold Poller.add
        cases l.host.control l.system.poller.descriptor fd (.add token i.mask) <;> rfl
      dsimp only
      rw [hadd]
      cases l.system.poller.add fd token i l.host <;> rfl

end Loop

namespace Evented

variable {ι : Type} [Pollable ι] {e e' : Evented ι} {l l' : Loop} {token : Token}

/-- **A token that the loop holds is a clash**, whether or not the resource holds one already. -/
theorem registerAt_of_registered (h : l.system.isRegistered token = true) (e : Evented ι) :
    ∃ f, e.registerAt token l = (.error f, e, l) ∧ f.isClash = true := by
  unfold registerAt
  cases e.token with
  | some t => exact ⟨_, rfl, rfl⟩
  | none =>
    obtain ⟨f, hf, hclash⟩ := Loop.registerAt_of_registered h (Pollable.descriptor e.inner) e.interest
    rw [hf]
    exact ⟨f, rfl, hclash⟩

/-- What was said before does not matter to a registration. -/
theorem registerAt_note (e : Evented ι) (token : Token) (l : Loop) (n : Notice) :
    e.registerAt token (l.note n) = ((e.registerAt token l).1, (e.registerAt token l).2.1,
      (e.registerAt token l).2.2.note n) := by
  unfold registerAt
  cases e.token with
  | some t => rfl
  | none =>
    dsimp only
    rw [Loop.registerAt_note]
    rcases l.registerAt (Pollable.descriptor e.inner) token e.interest with ⟨r, l'⟩
    cases r <;> rfl

end Evented

/-! ### Tables -/

namespace Slab

variable {α : Type} {s t u : Slab α} {key n : Nat} {v : α} {o : Option α}

/-- The table `t` is the table `s` without the first `n` keys of its order, and with the entry
`o` under the next, if there is one. -/
structure Taken (n : Nat) (o : Option α) (s t : Slab α) : Prop where
  wellFormed : t.WellFormed
  get?_eq : ∀ j, t.get? j = if j = s.issue n then o else s.get? j
  live_eq : t.live = s.live + o.toList.length
  issue_eq : ∀ j, t.issue j = s.issue (n + o.toList.length + j)
  offset_eq : t.offset = s.offset
  policy_eq : t.policy = s.policy

namespace WellFormed

/-- A key was issued, and is given back. -/
theorem taken_remove (hs : s.WellFormed) (h : s.insert v = .ok (key, t)) :
    Taken 0 none s (t.remove key).2 where
  wellFormed := (hs.insert h).remove key
  get?_eq j := by
    rw [get?_remove, get?_insert h, issue_zero, ← key_of_insert h]
    split <;> rfl
  live_eq := by
    rw [live_remove (hs.get?_key_insert h).1, live_insert h]
    rfl
  issue_eq j := by
    rw [hs.issue_remove_insert h]
    congr 1
    simp
  offset_eq := by rw [offset_remove, offset_insert h]
  policy_eq := by rw [policy_remove, policy_insert h]

/-- A key was issued, and is withdrawn. -/
theorem taken_retire (hs : s.WellFormed) (h : s.insert v = .ok (key, t)) :
    Taken 1 none s ((t.remove key).2.retire key) where
  wellFormed := ((hs.insert h).remove key).retire key
  get?_eq j := by
    rw [get?_retire, get?_remove, get?_insert h]
    by_cases hk : j = key
    · rw [if_pos hk, hk, key_of_insert h, hs.get?_vacantKey]
      split <;> rfl
    · rw [if_neg hk, if_neg hk, if_neg hk]
      split
      · next hj => rw [hj, (hs.issue_spec 1).1]
      · rfl
  live_eq := by
    have hgone : (t.remove key).2.contains key = false :=
      contains_eq_false_iff.mpr (by rw [get?_remove, if_pos rfl])
    unfold Slab.retire
    rw [hgone]
    show (t.remove key).2.live = _
    rw [live_remove (hs.get?_key_insert h).1, live_insert h]
    rfl
  issue_eq j := by
    rw [hs.issue_retire_insert h]
    congr 1
    simp [Nat.add_comm]
  offset_eq := by rw [offset_retire, offset_remove, offset_insert h]
  policy_eq := by rw [policy_retire, policy_remove, policy_insert h]

/-- A key was issued, and its entry is put in its final shape. -/
theorem taken_set (hs : s.WellFormed) (h : s.insert v = .ok (key, t)) (w : α) :
    Taken 0 (some w) s (t.set key w) where
  wellFormed := (hs.insert h).set key w
  get?_eq j := by
    rw [get?_set, get?_insert h, issue_zero, ← key_of_insert h,
      contains_iff.mpr ⟨v, (hs.get?_key_insert h).1⟩]
    by_cases hj : j = key
    · rw [if_pos ⟨hj, rfl⟩, if_pos hj]
    · rw [if_neg (fun h => hj h.1), if_neg hj, if_neg hj]
  live_eq := by
    rw [live_set, live_insert h]
    rfl
  issue_eq j := by
    rw [issue_set, issue_insert h]
    congr 1
    simp [Nat.add_comm]
  offset_eq := by rw [offset_set, offset_insert h]
  policy_eq := by rw [policy_set, policy_insert h]

end WellFormed

/-- Keys passed over first are passed over in all. -/
theorem Taken.trans (h : Taken 1 none s t) (h' : Taken n o t u) (hs : s.WellFormed) :
    Taken (n + 1) o s u where
  wellFormed := h'.wellFormed
  get?_eq j := by
    -- the keys issued after the first are the same, one place earlier
    have hissue : t.issue n = s.issue (n + 1) := by
      rw [h.issue_eq]
      congr 1
      simp [Nat.add_comm]
    rw [h'.get?_eq, hissue, h.get?_eq]
    split
    · rfl
    · split
      · next hj => rw [hj, (hs.issue_spec 1).1]
      · rfl
  live_eq := by
    rw [h'.live_eq, h.live_eq]
    rfl
  issue_eq j := by
    rw [h'.issue_eq, h.issue_eq]
    congr 1
    simp only [Option.toList_none, List.length_nil]
    omega
  offset_eq := h'.offset_eq.trans h.offset_eq
  policy_eq := h'.policy_eq.trans h.policy_eq

theorem Reaches.unique {held : Nat → Bool} {f : Nat → Nat} {m n : Nat} (hm : Reaches held f m)
    (hn : Reaches held f n) : m = n := by
  rcases Nat.lt_trichotomy m n with h | h | h
  · have hheld := hn.passed m h
    rw [hm.stop] at hheld
    cases hheld
  · exact h
  · have hheld := hm.passed n h
    rw [hn.stop] at hheld
    cases hheld

end Slab

/-! ### Adding -/

namespace Sessions

variable {ι : Type} [Pollable ι]

/-- The entry that is stored under a key if the registration under it gave this answer. -/
def entry (v : Evented ι) (key : Token) (r : Except Failure Unit) : Option (Evented ι) :=
  r.toOption.map fun _ => { v with token := some key }

/-- The first key that the loop does not hold decides, if there are enough attempts. -/
theorem tryAdd_reaches (v : Evented ι) (n : Nat) : ∀ (fuel : Nat) (s : Slab (Evented ι)) (l : Loop),
    s.WellFormed → s.policy.admits s.live = true →
    Slab.Reaches l.system.isRegistered s.issue n → n < fuel →
    (tryAdd v s l fuel).1
        = (v.registerAt (s.issue n) l).1.map (fun _ => s.issue n) ∧
      Slab.Taken n (entry v (s.issue n) (v.registerAt (s.issue n) l).1) s
        (tryAdd v s l fuel).2.1 := by
  induction n with
  | zero =>
    intro fuel s l hs hadm hn hfuel
    obtain ⟨fuel, rfl⟩ : ∃ k, fuel = k + 1 := ⟨fuel - 1, by omega⟩
    unfold tryAdd
    cases hins : s.insert v with
    | error why =>
      rw [(Slab.insert_error hins).2] at hadm
      cases hadm
    | ok r =>
      obtain ⟨key, t⟩ := r
      have hkey : s.issue 0 = key := (s.issue_zero).trans (Slab.key_of_insert hins).symm
      have hstop := hn.stop
      rw [hkey] at hstop ⊢
      dsimp only
      rcases hc : Session.claim key v l with ⟨r, v', l'⟩
      have hreg : v.registerAt key l = (r, v', l') := hc
      rw [hreg]
      cases r with
      | ok u =>
        obtain ⟨-, rfl, -⟩ := Evented.registerAt_ok hreg
        exact ⟨rfl, hs.taken_set hins _⟩
      | error f =>
        -- the key is not held, so the failure is no clash with the loop
        have hfree : l'.system.isRegistered key = false := by
          obtain ⟨-, hk⟩ := Evented.registerAt_error hreg
          rw [System.isRegistered, Slab.contains_eq_false_iff, ← Loop.lodged_eq_none_iff, hk,
            Loop.lodged_eq_none_iff, ← Slab.contains_eq_false_iff]
          exact hstop
        dsimp only
        rw [hfree, Bool.and_false]
        exact ⟨rfl, hs.taken_remove hins⟩
  | succ n ih =>
    intro fuel s l hs hadm hn hfuel
    obtain ⟨fuel, rfl⟩ : ∃ k, fuel = k + 1 := ⟨fuel - 1, by omega⟩
    unfold tryAdd
    cases hins : s.insert v with
    | error why =>
      rw [(Slab.insert_error hins).2] at hadm
      cases hadm
    | ok r =>
      obtain ⟨key, t⟩ := r
      have hkey : s.issue 0 = key := (s.issue_zero).trans (Slab.key_of_insert hins).symm
      have hheld : l.system.isRegistered key = true := hkey ▸ hn.passed 0 (Nat.succ_pos n)
      obtain ⟨f, hf, hclash⟩ := v.registerAt_of_registered hheld
      have hc : Session.claim key v l = (.error f, v, l) := hf
      have hskip := hs.taken_retire hins
      have hissue : ∀ i, ((t.remove key).2.retire key).issue i = s.issue (i + 1) :=
        hs.issue_retire_insert hins
      dsimp only
      rw [hc]
      dsimp only
      rw [hclash, hheld, Bool.and_true]
      -- the attempts that follow start from a table without this key
      have hnext := ih fuel ((t.remove key).2.retire key) (l.note (.sessionSkipped key))
        hskip.wellFormed
        (by rw [hskip.policy_eq, hskip.live_eq]; exact hadm)
        ⟨fun i hi => (hissue i).symm ▸ hn.passed (i + 1) (by omega), (hissue n).symm ▸ hn.stop⟩
        (by omega)
      rw [hissue, v.registerAt_note] at hnext
      exact ⟨hnext.1, hskip.trans hnext.2 hs⟩

/-- **The first key that the loop does not hold decides.** -/
theorem add_reaches {s : Sessions (Evented ι)} {v : Evented ι} {l : Loop} {n : Nat}
    (hs : s.slab.WellFormed) (hl : l.system.table.WellFormed)
    (hadm : s.slab.policy.admits s.slab.live = true)
    (hn : Slab.Reaches l.system.isRegistered s.slab.issue n) :
    (s.add v l).1
        = (v.registerAt (s.slab.issue n) l).1.map (fun _ => s.slab.issue n) ∧
      Slab.Taken n (entry v (s.slab.issue n) (v.registerAt (s.slab.issue n) l).1) s.slab
        (s.add v l).2.1.slab := by
  obtain ⟨m, hle, hm⟩ := hs.exists_reaches hl
  have hfuel : n < l.system.registered + 1 := by
    rw [hn.unique hm]
    exact Nat.lt_succ_of_le hle
  exact tryAdd_reaches v n _ s.slab l hs hadm hn hfuel

/-- A table that is full refuses at once. -/
theorem add_full {s : Sessions (Evented ι)} (v : Evented ι) (l : Loop)
    (hfull : s.slab.policy.admits s.slab.live = false) :
    (s.add v l).1 = .error (.table .full) ∧ (s.add v l).2.1 = s := by
  have hins : s.slab.insert v = .error .full := by
    rw [Slab.insert, hfull]
    rfl
  unfold add tryAdd
  rw [hins]
  exact ⟨rfl, rfl⟩

/-- What removing a session does to the slots, whoever holds its token. -/
theorem slab_remove (s : Sessions (Evented ι)) (key : Token) (l : Loop) :
    (s.remove key l).1.slab = (s.slab.remove key).2 := by
  unfold remove
  cases h : s.slab.get? key with
  | none => rw [Slab.remove_none h]
  | some v => rw [Slab.remove_some h]

end Sessions
end EventLoop

import EventLoop.Proofs.Registration.Table
import EventLoop.Proofs.Registration.Watching
import EventLoop.Proofs.Slab.Issue

/-!
# Registrations that are taken back

A registration enters its token into the table before it asks the multiplexer,
and takes the entry out again if the multiplexer refuses.  What the tokens hold
is the same as before.  The order in which they are issued need not be: the token
that was tried is the next one, wherever in the order it stood.

If it was the next one already, nothing can be told from the tokens issued later,
up to one detail.  Where no token was free, the token that was fresh is a free
one now, and a token claimed past it makes the tokens in between come first.

## Main definitions

* `Slab.InStep o s t` — two tables whose free and fresh keys are the same, or which
  differ in that the first fresh key of one is the last free one of the other.
* `Loop.Request`, `Loop.serveAll` — operations on registrations, one after the other.
* `Loop.Reachable l` — `l` comes about from a new loop.

## Main results

* `Slab.InStep.claim` — a key may be claimed in both, unless it is past the one
  that is fresh in one and free in the other.
* `Loop.Mimics.serve` — such tables answer every request alike.
* `Loop.Reachable.refused_spec` — **what a registration that fails leaves behind.**
-/

namespace EventLoop

/-! ### Tables in step -/

namespace Slab

variable {α : Type} {s t s' : Slab α} {key k : Nat} {v : α} {o : Option Nat} {why : Refusal}

/-- The free and the fresh keys of `s` and `t` are the same, or the first fresh key of `s`,
which then is `o`, is the last free one of `t`. -/
def InStep (o : Option Nat) (s t : Slab α) : Prop :=
  (t.free = s.free ∧ t.next = s.next) ∨
    (o = some s.next ∧ t.free = s.free ++ [s.next] ∧ t.next = s.next + 1)

/-- The same key is next. -/
theorem InStep.vacantKey_eq (h : InStep o s t) : t.vacantKey = s.vacantKey := by
  unfold vacantKey
  rcases h with ⟨hfree, hnext⟩ | ⟨-, hfree, -⟩
  · rw [hfree, hnext]
  · rw [hfree]
    cases s.free <;> rfl

namespace WellFormed

theorem vacantKey_le_next (hs : s.WellFormed) : s.vacantKey ≤ s.next := by
  unfold vacantKey
  cases hf : s.free with
  | nil => exact Nat.le_refl _
  | cons k rest => exact Nat.le_of_lt (hs.free_lt_next k (by rw [hf]; exact List.mem_cons_self))

/-- Striking out a key that is not free changes nothing. -/
theorem filter_free (hs : s.WellFormed) (hk : s.next ≤ key) : s.free.filter (· != key) = s.free := by
  rw [List.filter_eq_self]
  intro j hj
  have hlt := hs.free_lt_next j hj
  rw [bne_iff_ne]
  omega

end WellFormed

theorem claim_of_fresh (h : s.next ≤ k) :
    (s.claim k).free = List.range' s.next (k - s.next) ++ s.free ∧ (s.claim k).next = k + 1 := by
  rw [Slab.claim, if_pos h]
  exact ⟨rfl, rfl⟩

theorem claim_of_used (h : k < s.next) (hoff : s.offset ≤ k) :
    (s.claim k).free = s.free.filter (· != k) ∧ (s.claim k).next = s.next := by
  rw [Slab.claim, if_neg (Nat.not_le_of_lt h), if_pos hoff]
  exact ⟨rfl, rfl⟩

theorem claim_of_below (h : k < s.next) (hoff : k < s.offset) : s.claim k = s := by
  rw [Slab.claim, if_neg (Nat.not_le_of_lt h), if_neg (Nat.not_le_of_lt hoff)]

/-- A key may be claimed in both, unless it is past the one that is fresh in `s` and free
in `t`. -/
theorem InStep.claim (h : InStep o s t) (hs : s.WellFormed) (hoff : t.offset = s.offset)
    (hk : o = some s.next → k ≤ s.next) : InStep o (s.claim k) (t.claim k) := by
  have hoffset := hs.offset_le_next
  rcases h with ⟨hfree, hnext⟩ | ⟨ho, hfree, hnext⟩
  · refine Or.inl ?_
    rcases Nat.lt_or_ge k s.next with hlt | hge
    · rcases Nat.lt_or_ge k s.offset with hbelow | habove
      · rw [claim_of_below hlt hbelow, claim_of_below (hnext.symm ▸ hlt) (hoff.symm ▸ hbelow)]
        exact ⟨hfree, hnext⟩
      · obtain ⟨hfs, hns⟩ := claim_of_used hlt habove
        obtain ⟨hft, hnt⟩ := claim_of_used (hnext.symm ▸ hlt) (hoff.symm ▸ habove)
        rw [hfs, hft, hns, hnt, hfree]
        exact ⟨rfl, hnext⟩
    · obtain ⟨hfs, hns⟩ := claim_of_fresh hge
      obtain ⟨hft, hnt⟩ := claim_of_fresh (s := t) (hnext.symm ▸ hge)
      rw [hfs, hft, hns, hnt, hfree, hnext]
      exact ⟨rfl, rfl⟩
  · rcases Nat.lt_or_eq_of_le (hk ho) with hlt | rfl
    · -- the key is fresh in neither
      refine Or.inr ?_
      rcases Nat.lt_or_ge k s.offset with hbelow | habove
      · rw [claim_of_below hlt hbelow, claim_of_below (by omega) (by omega)]
        exact ⟨ho, hfree, hnext⟩
      · obtain ⟨hfs, hns⟩ := claim_of_used hlt habove
        obtain ⟨hft, hnt⟩ := claim_of_used (s := t) (k := k) (by omega) (by omega)
        have hne : (s.next != k) = true := bne_iff_ne.mpr (by omega)
        rw [hfs, hft, hns, hnt, hfree, List.filter_append, List.filter_cons, if_pos hne,
          List.filter_nil]
        exact ⟨ho, rfl, hnext⟩
    · -- it is the one in which they differ
      refine Or.inl ?_
      obtain ⟨hfs, hns⟩ := claim_of_fresh (s := s) (Nat.le_refl _)
      obtain ⟨hft, hnt⟩ := claim_of_used (s := t) (k := s.next) (by omega) (by omega)
      have hself : ¬(s.next != s.next) = true := by
        rw [bne_self_eq_false]
        exact Bool.false_ne_true
      rw [hfs, hft, hns, hnt, hfree, List.filter_append, hs.filter_free (Nat.le_refl _),
        List.filter_cons, if_neg hself, List.filter_nil, List.append_nil, Nat.sub_self]
      exact ⟨rfl, hnext⟩

/-- The tables hold the same, and issue their keys in step. -/
structure Follows (o : Option Nat) (s t : Slab α) : Prop where
  wellFormed : s.WellFormed
  get?_eq : ∀ j, t.get? j = s.get? j
  live_eq : t.live = s.live
  offset_eq : t.offset = s.offset
  policy_eq : t.policy = s.policy
  inStep : InStep o s t

namespace Follows

theorem insertAt_error (h : Follows o s t) (hins : s.insertAt k v = .error why) :
    t.insertAt k v = .error why := by
  unfold Slab.insertAt contains at *
  rw [h.get?_eq, h.policy_eq, h.live_eq]
  split at hins
  · next hc => rw [if_pos hc]; exact hins
  · next hc =>
    rw [if_neg hc]
    split at hins
    · cases hins
    · next hadm => rw [if_neg hadm]; exact hins

theorem insertAt_ok (h : Follows o s t) (hk : o = some s.next → k ≤ s.next)
    (hins : s.insertAt k v = .ok s') : ∃ t', t.insertAt k v = .ok t' ∧ Follows o s' t' := by
  obtain ⟨hvac, hadm, rfl⟩ := Slab.insertAt_ok hins
  refine ⟨(t.claim k).place k v, ?_, ⟨h.wellFormed.insertAt hins, fun j => ?_, ?_, ?_, ?_, ?_⟩⟩
  · have hc : ¬t.contains k = true := by
      rw [contains_eq_false_iff.mpr ((h.get?_eq k).trans hvac)]
      exact Bool.false_ne_true
    have hadm' : t.policy.admits t.live = true := by rw [h.policy_eq, h.live_eq]; exact hadm
    unfold Slab.insertAt
    rw [if_neg hc, if_pos hadm']
  · rw [get?_place, get?_place, get?_claim, get?_claim, h.get?_eq]
  · rw [live_place, live_place, live_claim, live_claim, h.live_eq]
  · rw [offset_place, offset_place, offset_claim, offset_claim, h.offset_eq]
  · rw [policy_place, policy_place, policy_claim, policy_claim, h.policy_eq]
  · unfold InStep
    rw [free_place, free_place, next_place, next_place]
    exact h.inStep.claim h.wellFormed h.offset_eq hk

theorem remove (h : Follows o s t) (k : Nat) : Follows o (s.remove k).2 (t.remove k).2 := by
  cases hs : s.get? k with
  | none =>
    rw [remove_none hs, remove_none ((h.get?_eq k).trans hs)]
    exact h
  | some v =>
    have ht := (h.get?_eq k).trans hs
    -- the two tables give the same key back
    refine ⟨h.wellFormed.remove k, fun j => ?_, ?_, ?_, ?_, ?_⟩
    · rw [get?_remove, get?_remove, h.get?_eq]
    · rw [live_remove hs, live_remove ht, h.live_eq]
    · rw [offset_remove, offset_remove, h.offset_eq]
    · rw [policy_remove, policy_remove, h.policy_eq]
    · rw [remove_some hs, remove_some ht, h.offset_eq]
      dsimp only
      split
      · -- the key comes first in both
        rcases h.inStep with ⟨hfree, hnext⟩ | ⟨ho, hfree, hnext⟩
        · exact Or.inl ⟨congrArg (k :: ·) hfree, hnext⟩
        · exact Or.inr ⟨ho, congrArg (k :: ·) hfree, hnext⟩
      · exact h.inStep

theorem set (h : Follows o s t) (k : Nat) (v : α) : Follows o (s.set k v) (t.set k v) where
  wellFormed := h.wellFormed.set k v
  get?_eq j := by
    rw [get?_set, get?_set, contains, contains, h.get?_eq, h.get?_eq]
  live_eq := by rw [live_set, live_set, h.live_eq]
  offset_eq := by rw [offset_set, offset_set, h.offset_eq]
  policy_eq := by rw [policy_set, policy_set, h.policy_eq]
  inStep := by
    unfold InStep
    rw [free_set, free_set, next_set, next_set]
    exact h.inStep

end Follows

theorem live_insertAt (h : s.insertAt key v = .ok t) : t.live = s.live + 1 := by
  obtain ⟨-, -, rfl⟩ := Slab.insertAt_ok h
  rw [live_place, live_claim]

namespace WellFormed

/-- **An entry that is made under the next key and taken out again leaves the table in step**,
and alike if the key was a free one. -/
theorem follows_remove_insertAt (hs : s.WellFormed) (hkey : key = s.vacantKey)
    (h : s.insertAt key v = .ok t) :
    Follows (if s.free = [] then some key else none) s (t.remove key).2 := by
  have hget : t.get? key = some v := by rw [get?_insertAt h, if_pos rfl]
  have hoff : t.offset ≤ key := by
    rw [offset_insertAt h, hkey]
    exact hs.offset_le_vacantKey
  obtain ⟨hfree, hnext⟩ := free_remove hget hoff
  refine ⟨hs, get?_remove_insertAt h, ?_, ?_, ?_, ?_⟩
  · rw [live_remove hget, live_insertAt h, Nat.add_sub_cancel]
  · rw [offset_remove, offset_insertAt h]
  · rw [policy_remove, policy_insertAt h]
  · obtain ⟨-, -, rfl⟩ := Slab.insertAt_ok h
    rw [free_place] at hfree
    rw [next_place] at hnext
    unfold Slab.vacantKey at hkey
    unfold InStep
    rw [hfree, hnext]
    cases hf : s.free with
    | nil =>
      -- the key was fresh, and is free now
      rw [hf] at hkey
      have hk : key = s.next := hkey
      subst hk
      obtain ⟨hcf, hcn⟩ := claim_of_fresh (s := s) (Nat.le_refl _)
      rw [if_pos rfl, hcf, hcn, hf, Nat.sub_self]
      exact Or.inr ⟨rfl, rfl, rfl⟩
    | cons k rest =>
      -- the key was the first free one, and is again
      rw [hf] at hkey
      have hk : key = k := hkey
      subst hk
      have hmem : key ∈ s.free := by rw [hf]; exact List.mem_cons_self
      obtain ⟨hcf, hcn⟩ := claim_of_used (hs.free_lt_next key hmem) (hs.offset_le_of_free key hmem)
      have hnot : key ∉ rest := (List.nodup_cons.mp (hf ▸ hs.free_nodup)).1
      have hrest : (key :: rest).filter (· != key) = rest := by
        rw [List.filter_cons, if_neg (by simp), List.filter_eq_self]
        intro j hj
        rw [bne_iff_ne]
        rintro rfl
        exact hnot hj
      rw [hcf, hcn, hf, hrest]
      exact Or.inl ⟨rfl, rfl⟩

end WellFormed
end Slab

/-- A multiplexer that refuses gives an error number. -/
theorem Poller.add_error {p : Poller} {fd : Option Nat} {token : Token} {i : Interest} {h : Host}
    {f : Failure} (ha : p.add fd token i h = .error f) : ∃ e, f = .os .control e := by
  unfold add at ha
  cases hc : h.control p.descriptor fd (.add token i.mask) with
  | error e =>
    rw [hc] at ha
    cases ha
    exact ⟨e, rfl⟩
  | ok host => rw [hc] at ha; cases ha

/-! ### Requests -/

namespace Loop

/-- What can be asked for, or happens on the host. -/
inductive Request
  /-- Registers under the next token. -/
  | register (fd : Option Nat) (i : Interest)
  /-- Registers under a token of the caller's choice. -/
  | registerAt (fd : Option Nat) (token : Token) (i : Interest)
  /-- Changes an interest. -/
  | reregister (token : Token) (i : Interest)
  /-- Frees a token. -/
  | deregister (token : Token)
  /-- The host changes. -/
  | elsewhere (h : Host)

/-- A failure, or the token that was issued if there was one. -/
abbrev Answer := Except Failure (Option Token)

namespace Request

/-- The answer to a request, and what it leaves. -/
def serve (l : Loop) : Request → Answer × Loop
  | .register fd i => ((l.register fd i).1.map some, (l.register fd i).2)
  | .registerAt fd token i =>
    ((l.registerAt fd token i).1.map fun _ => some token, (l.registerAt fd token i).2)
  | .reregister token i => ((l.reregister token i).1.map fun _ => none, (l.reregister token i).2)
  | .deregister token => ((l.deregister token).1.map fun _ => none, (l.deregister token).2)
  | .elsewhere h => (.ok none, { l with host := h })

/-- The token a registration tries. -/
def aim (l : Loop) : Request → Option Token
  | .register _ _ => some l.system.table.vacantKey
  | .registerAt _ token _ => some token
  | _ => none

/-- The token a caller chooses. -/
def chosen : Request → Option Token
  | .registerAt _ token _ => some token
  | _ => none

end Request

/-- The answers to requests, one after the other, and what they leave. -/
def serveAll (l : Loop) : List Request → List Answer × Loop
  | [] => ([], l)
  | q :: rest =>
    let (a, l) := q.serve l
    let (answers, l) := l.serveAll rest
    (a :: answers, l)

/-- The states a loop reaches: through operations on its registrations, whether they succeed or
fail, and through all that leaves its registrations alone. -/
inductive Reachable : Loop → Prop
  /-- A new loop. -/
  | init {config : Config} {h h' : Host} {s : System}
      (hs : System.init config h = (.ok s, h')) : Reachable ⟨h', s⟩
  /-- A request. -/
  | serve {l : Loop} (q : Request) : Reachable l → Reachable (q.serve l).2
  /-- Something else happens. -/
  | elsewhere {l l' : Loop} (ht : l'.system.table = l.system.table) : Reachable l → Reachable l'

namespace Reachable

variable {l : Loop}

theorem wellFormed (hl : Reachable l) : l.system.table.WellFormed := by
  induction hl with
  | init hs =>
    obtain ⟨ht, -⟩ := System.init_ok hs
    show Slab.WellFormed _
    rw [ht]
    exact .of_empty 0 _
  | @serve l q _ ih =>
    cases q with
    | register fd i => exact wellFormed_register ih fd i
    | registerAt fd token i => exact wellFormed_registerAt ih fd token i
    | reregister token i => exact wellFormed_reregister ih token i
    | deregister token => exact wellFormed_deregister ih token
    | elsewhere h => exact ih
  | elsewhere ht _ ih => exact ht ▸ ih

/-- Tokens are issued from the first on. -/
theorem offset_eq (hl : Reachable l) : l.system.table.offset = 0 := by
  induction hl with
  | init hs =>
    obtain ⟨ht, -⟩ := System.init_ok hs
    show Slab.offset _ = 0
    rw [ht]
    rfl
  | @serve l q _ ih =>
    cases q with
    | register fd i => exact (sameFrame_register l fd i).offset_eq.trans ih
    | registerAt fd token i => exact (sameFrame_registerAt l fd token i).offset_eq.trans ih
    | reregister token i => exact (sameFrame_reregister l token i).offset_eq.trans ih
    | deregister token => exact (sameFrame_deregister l token).offset_eq.trans ih
    | elsewhere h => exact ih
  | elsewhere ht _ ih => exact ht ▸ ih

end Reachable

/-! ### Loops that differ in their table only -/

/-- The loop `m` is the loop `l` but for the table, which is in step. -/
def Mimics (o : Option Token) (l m : Loop) : Prop :=
  ∃ t, m = l.withTable t ∧ Slab.Follows o l.system.table t

namespace Mimics

variable {o : Option Token} {l m : Loop}

theorem registerAt (h : Mimics o l m) {token : Token}
    (hk : o = some l.system.table.next → token ≤ l.system.table.next) (fd : Option Nat)
    (i : Interest) : (m.registerAt fd token i).1 = (l.registerAt fd token i).1 ∧
      Mimics o (l.registerAt fd token i).2 (m.registerAt fd token i).2 := by
  obtain ⟨t, rfl, hf⟩ := h
  unfold Loop.registerAt
  rw [table_withTable, poller_withTable, host_withTable]
  by_cases hsys : token = systemToken
  · rw [if_pos hsys, if_pos hsys]
    exact ⟨rfl, t, rfl, hf⟩
  · rw [if_neg hsys, if_neg hsys]
    cases hins : l.system.table.insertAt token ⟨fd, i⟩ with
    | error why =>
      rw [hf.insertAt_error hins]
      exact ⟨rfl, t, rfl, hf⟩
    | ok table =>
      -- both tables take the key, and the multiplexer decides for both
      obtain ⟨t', ht', hf'⟩ := hf.insertAt_ok hk hins
      rw [ht']
      dsimp only
      cases l.system.poller.add fd token i l.host with
      | ok host => exact ⟨rfl, t', rfl, hf'⟩
      | error e => exact ⟨rfl, (t'.remove token).2, rfl, hf'.remove token⟩

theorem register (h : Mimics o l m) (fd : Option Nat) (i : Interest) :
    (m.register fd i).1 = (l.register fd i).1 ∧
      Mimics o (l.register fd i).2 (m.register fd i).2 := by
  have hkey : m.system.table.vacantKey = l.system.table.vacantKey := by
    obtain ⟨t, rfl, hf⟩ := h
    exact hf.inStep.vacantKey_eq
  have hle : l.system.table.vacantKey ≤ l.system.table.next := by
    obtain ⟨t, -, hf⟩ := h
    exact hf.wellFormed.vacantKey_le_next
  rw [register_eq, register_eq, hkey]
  obtain ⟨hr, hm⟩ := h.registerAt (fun _ => hle) fd i
  exact ⟨congrArg (Except.map _) hr, hm⟩

theorem reregister (h : Mimics o l m) (token : Token) (i : Interest) :
    (m.reregister token i).1 = (l.reregister token i).1 ∧
      Mimics o (l.reregister token i).2 (m.reregister token i).2 := by
  obtain ⟨t, rfl, hf⟩ := h
  unfold Loop.reregister
  rw [table_withTable, poller_withTable, host_withTable, hf.get?_eq]
  cases l.system.table.get? token with
  | none => exact ⟨rfl, t, rfl, hf⟩
  | some r =>
    dsimp only
    cases l.system.poller.modify r.descriptor token i l.host with
    | ok host => exact ⟨rfl, _, rfl, hf.set token _⟩
    | error e => exact ⟨rfl, t, rfl, hf⟩

theorem deregister (h : Mimics o l m) (token : Token) :
    (m.deregister token).1 = (l.deregister token).1 ∧
      Mimics o (l.deregister token).2 (m.deregister token).2 := by
  obtain ⟨t, rfl, hf⟩ := h
  have hrem := hf.remove token
  cases hr : l.system.table.get? token with
  | none =>
    rw [deregister_of_vacant hr, deregister_of_vacant ((hf.get?_eq token).trans hr)]
    exact ⟨rfl, t, rfl, hf⟩
  | some r =>
    unfold Loop.deregister
    rw [Slab.remove_some hr] at hrem
    rw [Slab.remove_some hr, table_withTable, Slab.remove_some ((hf.get?_eq token).trans hr)] at *
    dsimp only at hrem ⊢
    simp only [poller_withTable, host_withTable]
    cases l.system.poller.remove r.descriptor l.host with
    | ok host => exact ⟨rfl, _, rfl, hrem⟩
    | error e =>
      dsimp only
      split
      · exact ⟨rfl, _, rfl, hrem⟩
      · exact ⟨rfl, _, rfl, hrem⟩

/-- **Tables in step answer every request alike.** -/
theorem serve (h : Mimics o l m) {q : Request} (hq : ∀ bound ∈ o, ∀ k ∈ q.chosen, k ≤ bound) :
    (q.serve m).1 = (q.serve l).1 ∧ Mimics o (q.serve l).2 (q.serve m).2 := by
  cases q with
  | register fd i =>
    obtain ⟨hr, hm⟩ := h.register fd i
    exact ⟨congrArg (Except.map _) hr, hm⟩
  | registerAt fd token i =>
    obtain ⟨hr, hm⟩ := h.registerAt (fun ho => hq _ ho token rfl) fd i
    exact ⟨congrArg (Except.map _) hr, hm⟩
  | reregister token i =>
    obtain ⟨hr, hm⟩ := h.reregister token i
    exact ⟨congrArg (Except.map _) hr, hm⟩
  | deregister token =>
    obtain ⟨hr, hm⟩ := h.deregister token
    exact ⟨congrArg (Except.map _) hr, hm⟩
  | elsewhere host =>
    obtain ⟨t, rfl, hf⟩ := h
    exact ⟨rfl, t, rfl, hf⟩

theorem serveAll {later : List Request}
    (hq : ∀ bound ∈ o, ∀ q ∈ later, ∀ k ∈ q.chosen, k ≤ bound) (h : Mimics o l m) :
    (m.serveAll later).1 = (l.serveAll later).1 ∧
      Mimics o (l.serveAll later).2 (m.serveAll later).2 := by
  induction later generalizing l m with
  | nil => exact ⟨rfl, h⟩
  | cons q rest ih =>
    obtain ⟨ha, hm⟩ := h.serve fun bound hb => hq bound hb q List.mem_cons_self
    obtain ⟨has, hms⟩ := ih (fun bound hb r hr => hq bound hb r (List.mem_cons_of_mem q hr)) hm
    refine ⟨?_, hms⟩
    exact congrArg₂ List.cons ha has

end Mimics

/-! ### What a failure leaves behind -/

variable {l l' : Loop} {token : Token} {f : Failure}

/-- A registration that fails for another reason than the multiplexer changes nothing. -/
theorem registerAt_error_of_kind_ne {fd : Option Nat} {i : Interest}
    (h : l.registerAt fd token i = (.error f, l')) (hf : f.kind ≠ .io) : l' = l := by
  rcases registerAt_error h with ⟨-, -, rfl⟩ | ⟨-, -, -, rfl⟩ | ⟨table, -, hadd, -⟩
  · rfl
  · rfl
  · obtain ⟨errno, rfl⟩ := Poller.add_error hadd
    exact absurd rfl hf

/-- What a multiplexer refuses was entered, and is taken out again. -/
theorem registerAt_error_of_kind {fd : Option Nat} {i : Interest}
    (h : l.registerAt fd token i = (.error f, l')) (hf : f.kind = .io) :
    ∃ table, l.system.table.insertAt token ⟨fd, i⟩ = .ok table ∧
      l' = l.withTable (table.remove token).2 := by
  rcases registerAt_error h with ⟨-, rfl, -⟩ | ⟨why, -, rfl, -⟩ | ⟨table, hins, -, hl'⟩
  · cases hf
  · cases why <;> cases hf
  · exact ⟨table, hins, hl'⟩

/-- A failed request for a token is a failed registration under it. -/
theorem Request.registerAt_of_aim {q : Request} (hq : q.aim l = some token)
    (h : q.serve l = (.error f, l')) : ∃ fd i, l.registerAt fd token i = (.error f, l') := by
  cases q with
  | register fd i =>
    cases hq
    refine ⟨fd, i, ?_⟩
    rw [serve, register_eq] at h
    rcases hr : l.registerAt fd l.system.table.vacantKey i with ⟨r, m⟩
    rw [hr] at h
    cases r with
    | ok u => cases h
    | error e => cases h; rfl
  | registerAt fd token i =>
    cases hq
    refine ⟨fd, i, ?_⟩
    rw [serve] at h
    rcases hr : l.registerAt fd token i with ⟨r, m⟩
    rw [hr] at h
    cases r with
    | ok u => cases h
    | error e => cases h; rfl
  | reregister token i => cases hq
  | deregister token => cases hq
  | elsewhere host => cases hq

namespace Reachable

/-- The loop that a failed registration under the next token leaves. -/
theorem mimics_of_error (hl : Reachable l) {fd : Option Nat} {i : Interest}
    (h : l.registerAt fd token i = (.error f, l')) (hkey : token = l.system.table.vacantKey) :
    Mimics (if l.system.table.free = [] then some token else none) l l' := by
  by_cases hf : f.kind = .io
  · obtain ⟨table, hins, rfl⟩ := registerAt_error_of_kind h hf
    exact ⟨_, rfl, hl.wellFormed.follows_remove_insertAt hkey hins⟩
  · rw [registerAt_error_of_kind_ne h hf]
    exact ⟨l.system.table, rfl, hl.wellFormed, fun _ => rfl, rfl, rfl, rfl, Or.inl ⟨rfl, rfl⟩⟩

/-- **What a registration that fails leaves behind.**  Every token holds what it held, and if
the multiplexer was not asked, nothing has changed.  If it refused, the token that was tried is
the next to be issued.  If it was the next before, then all that is asked for later is answered
as if the registration had not been tried; where no token was free, this holds as long as no
token past it is claimed. -/
theorem refused_spec (hl : Reachable l) {q : Request} (hq : q.aim l = some token)
    (h : q.serve l = (.error f, l')) :
    (l' = l.withTable l'.system.table ∧ l'.system.registered = l.system.registered ∧
      ∀ j, l'.system.table.get? j = l.system.table.get? j) ∧
    (f.kind ≠ .io → l' = l) ∧
    (f.kind = .io → l'.system.table.vacantKey = token) ∧
    (token = l.system.table.vacantKey → ∀ later : List Request,
      (l.system.table.free = [] → ∀ r ∈ later, ∀ k ∈ r.chosen, k ≤ token) →
      (l'.serveAll later).1 = (l.serveAll later).1 ∧
        ∀ j, (l'.serveAll later).2.system.table.get? j
          = (l.serveAll later).2.system.table.get? j) := by
  obtain ⟨fd, i, hr⟩ := Request.registerAt_of_aim hq h
  refine ⟨?_, registerAt_error_of_kind_ne hr, fun hf => ?_, fun hkey later hlater => ?_⟩
  · refine ⟨?_, ?_, get?_registerAt_error hr⟩
    · rcases registerAt_error hr with ⟨-, -, rfl⟩ | ⟨-, -, -, rfl⟩ | ⟨table, -, -, rfl⟩ <;> rfl
    · rcases registerAt_error hr with ⟨-, -, rfl⟩ | ⟨-, -, -, rfl⟩ | ⟨table, hins, -, rfl⟩
      · rfl
      · rfl
      · show (table.remove token).2.live = l.system.table.live
        have hget : table.get? token = some ⟨fd, i⟩ := by rw [Slab.get?_insertAt hins, if_pos rfl]
        rw [Slab.live_remove hget, Slab.live_insertAt hins, Nat.add_sub_cancel]
  · obtain ⟨table, hins, rfl⟩ := registerAt_error_of_kind hr hf
    have hget : table.get? token = some ⟨fd, i⟩ := by rw [Slab.get?_insertAt hins, if_pos rfl]
    refine Slab.vacantKey_remove hget ?_
    rw [Slab.offset_insertAt hins, hl.offset_eq]
    exact Nat.zero_le token
  -- from here on the two loops answer alike
  · have hm := hl.mimics_of_error hr hkey
    obtain ⟨ha, t, ht, hf⟩ := hm.serveAll fun bound hb => by
      split at hb
      · next hfree =>
        cases hb
        exact hlater hfree
      · cases hb
    refine ⟨ha, fun j => ?_⟩
    rw [ht]
    exact hf.get?_eq j

/-- A new loop on a host with one counter, under descriptor 0. -/
def plainStart : Loop where
  host := (System.init (.standard .live) Registering.smallHost).2
  system := (System.init (.standard .live) Registering.smallHost).1.toOption.getD .absent

theorem refused_spec_plainStart : Reachable plainStart ∧
    (plainStart.register none .readable).1 = .error (.os .control .badDescriptor) ∧
    ((plainStart.register none .readable).2.serveAll [.register (some 0) .writable,
      .deregister 0, .registerAt (some 0) 0 .both]).1
      = [.ok (some 0), .ok none, .ok (some 0)] := by
  have hstart : Reachable plainStart := .init (h := Registering.smallHost) rfl
  have hfail : (plainStart.register none .readable).1 = .error (.os .control .badDescriptor) := by
    decide +kernel
  have hserve : (Request.register none .readable).serve plainStart
      = (.error (.os .control .badDescriptor), (plainStart.register none .readable).2) := by
    rw [Request.serve, hfail]
    rfl
  have haim : (Request.register none .readable).aim plainStart
      = some plainStart.system.table.vacantKey := rfl
  obtain ⟨-, -, -, hlater⟩ := refused_spec hstart haim hserve
  refine ⟨hstart, hfail, ?_⟩
  rw [(hlater rfl _ fun _ => by decide +kernel).1]
  decide +kernel

/-- A registration that the multiplexer refuses can be told from the next token that is
issued. -/
theorem not_restored_of_refused : Reachable plainStart ∧
    (plainStart.registerAt none 5 .readable).1 = .error (.os .control .badDescriptor) ∧
    ((plainStart.registerAt none 5 .readable).2.serveAll [.register (some 0) .readable]).1
      = [.ok (some 5)] ∧
    (plainStart.serveAll [.register (some 0) .readable]).1 = [.ok (some 0)] := by
  have hstart : Reachable plainStart := .init (h := Registering.smallHost) rfl
  refine ⟨hstart, ?_, ?_, ?_⟩ <;> decide +kernel

end Reachable

end Loop
end EventLoop

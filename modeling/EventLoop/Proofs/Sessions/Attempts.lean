import EventLoop.Proofs.Sessions.Refused

/-!
# How long a table looks for a key

The search for a key has no bound of its own: it goes on as long as the next
key is held by the loop.  It ends since no key is tried twice, and the loop
holds only so many.  The key it ends with is the first in the order of the table
that the loop does not hold, and those before it are gone from the table for
good.

## Main definitions

* `Sessions.Search v n s l r t l'` — the search, with `n` attempts and without a bound.

## Main results

* `Search.tryAdd_eq` — more attempts than it takes make no difference.
* `exists_search` — the search ends once there is a key the loop does not hold.
* `Search.spec` — what it leaves of table and loop.
* `Reachable.attempts_spec` — **how many keys an add tries, which one it settles on, and
  what becomes of the others.**
-/

namespace EventLoop

/-- A registration under a token that is neither held nor reserved fails for want of room, or
because the multiplexer refuses. -/
theorem Loop.kind_of_registerAt_error {l l' : Loop} {fd : Option Nat} {token : Token}
    {i : Interest} {f : Failure} (h : l.registerAt fd token i = (.error f, l'))
    (hfree : l.system.isRegistered token = false) (hne : token ≠ systemToken) :
    f.kind = .noCapacity ∨ f.kind = .io := by
  rcases Loop.registerAt_error h with ⟨heq, -, -⟩ | ⟨why, hins, rfl, -⟩ | ⟨table, -, hadd, -⟩
  · exact absurd heq hne
  · rcases Slab.insertAt_error hins with ⟨-, hheld⟩ | ⟨rfl, -, -⟩
    · rw [System.isRegistered, hheld] at hfree
      cases hfree
    · exact Or.inl rfl
  · obtain ⟨errno, rfl⟩ := Poller.add_error hadd
    exact Or.inr rfl

/-- A table that has only lost keys of its order holds what it held. -/
theorem Slab.Taken.get?_of_none {α : Type} {n : Nat} {s t : Slab α} (h : Taken n none s t)
    (hs : s.WellFormed) (j : Nat) : t.get? j = s.get? j := by
  rw [h.get?_eq]
  split
  · next hj => rw [hj, (hs.issue_spec n).1]
  · rfl

namespace Evented

variable {ι : Type} [Pollable ι] {e : Evented ι}

/-- To a resource without a token the loop's answer is the answer. -/
theorem fst_registerAt (h : e.token = none) (token : Token) (l : Loop) :
    (e.registerAt token l).1
      = (l.registerAt (Pollable.descriptor e.inner) token e.interest).1 := by
  unfold registerAt
  rw [h]
  dsimp only
  rcases l.registerAt (Pollable.descriptor e.inner) token e.interest with ⟨r, l'⟩
  cases r <;> rfl

/-- A resource without a token has none to give back. -/
theorem lodged_drop (h : e.token = none) (l : Loop) (j : Token) :
    (e.drop l).lodged j = l.lodged j := by
  unfold Loop.lodged
  rw [system_drop, deregister, h]

end Evented

namespace Sessions

variable {ι : Type} [Pollable ι]

/-! ### The search -/

/-- The search for a key that takes so many attempts: the table refuses, the session is
registered under the next key, it cannot be, or the loop holds that key and the search goes on
without it. -/
inductive Search (v : Evented ι) : Nat → Slab (Evented ι) → Loop →
    Except Failure Token → Slab (Evented ι) → Loop → Prop
  /-- The table is full. -/
  | full {s : Slab (Evented ι)} {l : Loop} {why : Slab.Refusal} (hins : s.insert v = .error why) :
      Search v 1 s l (.error (.table why)) s (v.drop l)
  /-- The session is registered. -/
  | stored {s t : Slab (Evented ι)} {l l' : Loop} {key : Token} {w : Evented ι}
      (hins : s.insert v = .ok (key, t)) (hreg : v.registerAt key l = (.ok (), w, l')) :
      Search v 1 s l (.ok key) (t.set key w) (l'.note (.sessionAdded key))
  /-- The session is not registered, and not because of the key. -/
  | rejected {s t : Slab (Evented ι)} {l l' : Loop} {key : Token} {w : Evented ι} {f : Failure}
      (hins : s.insert v = .ok (key, t)) (hreg : v.registerAt key l = (.error f, w, l'))
      (hclash : (f.isClash && l'.system.isRegistered key) = false) :
      Search v 1 s l (.error f) (t.remove key).2 (w.drop (l'.note (.sessionRejected key f)))
  /-- The loop holds the key, which is withdrawn. -/
  | skipped {s t u : Slab (Evented ι)} {l l' l'' : Loop} {key : Token} {f : Failure} {n : Nat}
      {r : Except Failure Token} (hins : s.insert v = .ok (key, t))
      (hreg : v.registerAt key l = (.error f, v, l'))
      (hclash : (f.isClash && l'.system.isRegistered key) = true)
      (rest : Search v n ((t.remove key).2.retire key) (l'.note (.sessionSkipped key)) r u l'') :
      Search v (n + 1) s l r u l''

namespace Search

variable {v : Evented ι} {n : Nat} {s t : Slab (Evented ι)} {l l' : Loop}
  {r : Except Failure Token}

/-- **More attempts than it takes make no difference.** -/
theorem tryAdd_eq (h : Search v n s l r t l') {fuel : Nat} (hfuel : n ≤ fuel) :
    tryAdd v s l fuel = (r, t, l') := by
  -- on the search: each key tried takes one unit of fuel
  induction h generalizing fuel with
  | full hins =>
    obtain ⟨fuel, rfl⟩ := Nat.exists_eq_add_of_le' hfuel
    unfold tryAdd
    rw [hins]
    rfl
  | @stored s t l l' key w hins hreg =>
    obtain ⟨fuel, rfl⟩ := Nat.exists_eq_add_of_le' hfuel
    have hclaim : Session.claim key v l = (.ok (), w, l') := hreg
    unfold tryAdd
    rw [hins]
    dsimp only
    rw [hclaim]
  | @rejected s t l l' key w f hins hreg hclash =>
    obtain ⟨fuel, rfl⟩ := Nat.exists_eq_add_of_le' hfuel
    have hclaim : Session.claim key v l = (.error f, w, l') := hreg
    unfold tryAdd
    rw [hins]
    dsimp only
    rw [hclaim]
    dsimp only
    rw [hclash]
    rfl
  | @skipped s t u l l' l'' key f n r hins hreg hclash _ ih =>
    obtain ⟨fuel, rfl⟩ : ∃ k, fuel = k + 1 := ⟨fuel - 1, by omega⟩
    have hclaim : Session.claim key v l = (.error f, v, l') := hreg
    unfold tryAdd
    rw [hins]
    dsimp only
    rw [hclaim]
    dsimp only
    rw [hclash, if_pos rfl]
    exact ih (Nat.le_of_succ_le_succ hfuel)

/-- **What the search leaves.**  With a key, the table holds the session there and the loop its
descriptor; without one, both hold what they held. -/
theorem spec (h : Search v n s l r t l') (hv : v.token = none) (hs : s.WellFormed) :
    (∀ j, t.get? j = if r = .ok j then some { v with token := some j } else s.get? j) ∧
      ∀ j, l'.lodged j = if r = .ok j then some (Pollable.descriptor v.inner) else l.lodged j := by
  induction h with
  | full hins => exact ⟨fun j => rfl, fun j => Evented.lodged_drop hv _ j⟩
  | @stored s t l l' key w hins hreg =>
    obtain ⟨-, rfl, hl'⟩ := Evented.registerAt_ok hreg
    have hset := (hs.taken_set hins { v with token := some key }).get?_eq
    rw [Slab.issue_zero, ← Slab.key_of_insert hins] at hset
    refine ⟨fun j => ?_, fun j => ?_⟩
    · rw [hset]
      by_cases hj : j = key
      · rw [if_pos hj, if_pos (congrArg Except.ok hj.symm), hj]
      · rw [if_neg hj, if_neg fun h => hj (Except.ok.inj h).symm]
    · have hlodged := Loop.lodged_change (Loop.get?_registerAt_ok hl') j
      show l'.lodged j = _
      rw [hlodged]
      by_cases hj : j = key
      · rw [if_pos hj, if_pos (congrArg Except.ok hj.symm)]
        rfl
      · rw [if_neg hj, if_neg fun h => hj (Except.ok.inj h).symm]
  | @rejected s t l l' key w f hins hreg _ =>
    obtain ⟨rfl, hkeep⟩ := Evented.registerAt_error hreg
    refine ⟨(hs.taken_remove hins).get?_of_none hs, fun j => ?_⟩
    rw [Evented.lodged_drop hv]
    exact hkeep j
  -- a skipped key leaves both tables as they were for every lookup
  | @skipped s t u l l' l'' key f n r hins hreg _ _ ih =>
    obtain ⟨-, hkeep⟩ := Evented.registerAt_error hreg
    have hskip := hs.taken_retire hins
    obtain ⟨hget, hlodged⟩ := ih hskip.wellFormed
    refine ⟨fun j => ?_, fun j => ?_⟩
    · rw [hget, hskip.get?_of_none hs]
    · rw [hlodged]
      exact congrArg (ite _ _) (hkeep j)

end Search

/-- **The search ends once there is a key the loop does not hold.**  No more keys are tried than
come up to it in the order of the table. -/
theorem exists_search (v : Evented ι) (fuel : Nat) : ∀ (s : Slab (Evented ι)) (l : Loop),
    s.WellFormed → (∃ i < fuel, l.system.isRegistered (s.issue i) = false) →
    ∃ n ≤ fuel, ∃ r t l', Search v n s l r t l' := by
  induction fuel with
  | zero =>
    rintro s l - ⟨i, hi, -⟩
    exact absurd hi (Nat.not_lt_zero i)
  | succ fuel ih =>
    rintro s l hs ⟨i, hi, hfree⟩
    cases hins : s.insert v with
    | error why => exact ⟨1, Nat.succ_pos fuel, _, _, _, .full hins⟩
    | ok a =>
      obtain ⟨key, t⟩ := a
      rcases hreg : v.registerAt key l with ⟨r, w, l'⟩
      cases r with
      | ok u => exact ⟨1, Nat.succ_pos fuel, _, _, _, .stored hins hreg⟩
      | error f =>
        cases hclash : f.isClash && l'.system.isRegistered key with
        | false => exact ⟨1, Nat.succ_pos fuel, _, _, _, .rejected hins hreg hclash⟩
        | true =>
          obtain ⟨rfl, hkeep⟩ := Evented.registerAt_error hreg
          have hsame : ∀ j, l'.system.isRegistered j = l.system.isRegistered j := fun j => by
            rw [Bool.eq_iff_iff, Loop.isRegistered_iff, Loop.isRegistered_iff, hkeep]
          have hheld : l.system.isRegistered (s.issue 0) = true := by
            rw [Slab.issue_zero, ← Slab.key_of_insert hins, ← hsame]
            exact (Bool.and_eq_true _ _ ▸ hclash).2
          -- the free key comes later, and one place earlier once this one is gone
          obtain ⟨k, rfl⟩ : ∃ k, i = k + 1 := by
            refine Nat.exists_eq_succ_of_ne_zero ?_
            rintro rfl
            rw [hheld] at hfree
            cases hfree
          obtain ⟨n, hn, r, u, l'', hrest⟩ := ih ((t.remove key).2.retire key)
            (l'.note (.sessionSkipped key)) (hs.taken_retire hins).wellFormed
            ⟨k, Nat.lt_of_succ_lt_succ hi, by
              rw [hs.issue_retire_insert hins]
              exact (hsame _).trans hfree⟩
          exact ⟨n + 1, Nat.succ_le_succ hn, r, u, l'', .skipped hins hreg hclash hrest⟩

/-! ### The keys before -/

omit [Pollable ι] in
/-- The keys that were passed over are withdrawn. -/
theorem withdrawn_of_taken {s t : Sessions (Evented ι)} {n i : Nat} {o : Option (Evented ι)}
    (hs : s.slab.WellFormed) (h : Slab.Taken n o s.slab t.slab) (hi : i < n) :
    t.Withdrawn (s.slab.issue i) := by
  refine ⟨h.wellFormed, ?_, fun j hj => ?_⟩
  · have hne : s.slab.issue i ≠ s.slab.issue n := fun heq => by
      have hin := hs.issue_injective heq
      omega
    rw [h.get?_eq, if_neg hne, (hs.issue_spec i).1]
  · rw [h.issue_eq] at hj
    have hij := hs.issue_injective hj
    omega

/-- **How many keys an add tries, which one it settles on, and what becomes of the others.**  It
tries at most one more than the loop has tokens.  If the table admits an entry it comes to the
first key of its order that the loop does not hold, and the loop's answer there is the answer:
the session is stored and registered under it, or nothing is kept, for want of room or because
the multiplexer refuses.  What was tried before is never issued again, whatever is asked of the
table later, and whatever the loop holds by then.

The reserved token is no index into a table that fits into memory. -/
theorem Reachable.attempts_spec {offset : Token} {policy : Capacity} {s : Sessions (Evented ι)}
    (hs : Reachable offset policy s) {l : Loop} (hl : l.Reachable) {v : Evented ι}
    (hv : v.token = none) :
    (∃ n ≤ l.system.registered + 1,
      Search v n s.slab l (s.add v l).1 (s.add v l).2.1.slab (s.add v l).2.2) ∧
    (∀ j, (s.add v l).2.1.slab.get? j
      = if (s.add v l).1 = .ok j then some { v with token := some j } else s.slab.get? j) ∧
    (∀ j, (s.add v l).2.2.lodged j
      = if (s.add v l).1 = .ok j then some (Pollable.descriptor v.inner) else l.lodged j) ∧
    (s.slab.policy.admits s.slab.live = false → (s.add v l).1 = .error (.table .full)) ∧
    (s.slab.policy.admits s.slab.live = true →
      ∃ k, Slab.Reaches l.system.isRegistered s.slab.issue k ∧
        (s.add v l).1 = (l.registerAt (Pollable.descriptor v.inner) (s.slab.issue k)
          v.interest).1.map (fun _ => s.slab.issue k) ∧
        (∀ f, (s.add v l).1 = .error f → s.slab.issue k ≠ systemToken →
          f.kind = .noCapacity ∨ f.kind = .io) ∧
        ∀ i < k, ∀ later : List (Request ι × Loop), (∀ p ∈ later, p.2.Reachable) →
          .added (.ok (s.slab.issue i)) ∉ ((s.add v l).2.1.serveAll later).1) := by
  have hwf := hs.wellFormed
  have hsearch : ∃ n ≤ l.system.registered + 1,
      Search v n s.slab l (s.add v l).1 (s.add v l).2.1.slab (s.add v l).2.2 := by
    -- with so many tokens held, the key after them at the latest is free
    obtain ⟨m, hm, hreach⟩ := hwf.exists_reaches hl.wellFormed
    obtain ⟨n, hn, r, t, l', h⟩ :=
      exists_search v (l.system.registered + 1) s.slab l hwf ⟨m, Nat.lt_succ_of_le hm, hreach.stop⟩
    refine ⟨n, hn, ?_⟩
    unfold add
    rw [h.tryAdd_eq hn]
    exact h
  obtain ⟨n, hn, h⟩ := hsearch
  obtain ⟨hget, hlodged⟩ := h.spec hv hwf
  refine ⟨⟨n, hn, h⟩, hget, hlodged, fun hfull => (add_full v l hfull).1, fun hadm => ?_⟩
  obtain ⟨k, hk, hr, htaken⟩ := exists_add_reaches v hwf hl hadm
  rw [Evented.fst_registerAt hv] at hr
  refine ⟨k, hk, hr, fun f hf hne => ?_, fun i hi later hlater => ?_⟩
  · rw [hr] at hf
    rcases hreg : l.registerAt (Pollable.descriptor v.inner) (s.slab.issue k) v.interest
      with ⟨a, l'⟩
    rw [hreg] at hf
    cases a with
    | ok u => cases hf
    | error f' =>
      cases hf
      exact Loop.kind_of_registerAt_error hreg hk.stop hne
  · exact (withdrawn_of_taken hwf htaken hi).serveAll hlater

/-- A counter holds the first key, so a session gets the second.  The first is not issued even
when the counter has given it back and the session is gone. -/
theorem attempts_spec_noSessions :
    (noSessions.add sound busyLoop).1 = .ok 1 ∧
    (noSessions.add sound busyLoop).2.1.slab.get? 1 = some { sound with token := some 1 } ∧
    (∃ n ≤ 2, Search sound n noSessions.slab busyLoop (noSessions.add sound busyLoop).1
      (noSessions.add sound busyLoop).2.1.slab (noSessions.add sound busyLoop).2.2) ∧
    (busyLoop.deregister 0).2.system.isRegistered 0 = false ∧
    .added (.ok 0) ∉ ((noSessions.add sound busyLoop).2.1.serveAll
      [(.remove 1, busyLoop), (.add sound, (busyLoop.deregister 0).2),
        (.add sound, (busyLoop.deregister 0).2)]).1 := by
  have hempty : Reachable 0 .unbounded noSessions := .empty
  have hfree : (busyLoop.deregister 0).2.Reachable := .serve (.deregister 0) busyLoop_reachable
  have hok : (noSessions.add sound busyLoop).1 = .ok 1 := by decide +kernel
  obtain ⟨⟨n, hn, hsearch⟩, hget, -, -, hspec⟩ :=
    hempty.attempts_spec busyLoop_reachable (v := sound) rfl
  obtain ⟨k, hk, hr, -, hnever⟩ := hspec rfl
  -- the first key is a token that the system holds
  have hone : 0 < k := by
    refine Nat.pos_of_ne_zero ?_
    rintro rfl
    have hheld : busyLoop.system.isRegistered (noSessions.slab.issue 0) = true := by decide +kernel
    rw [hk.stop] at hheld
    cases hheld
  refine ⟨hok, ?_, ⟨n, hn, hsearch⟩, by decide +kernel, ?_⟩
  · rw [hget, if_pos hok]
  · refine hnever 0 hone _ fun p hp => ?_
    simp only [List.mem_cons, List.not_mem_nil, or_false] at hp
    rcases hp with rfl | rfl | rfl
    · exact busyLoop_reachable
    · exact hfree
    · exact hfree

end Sessions
end EventLoop

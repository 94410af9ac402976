import EventLoop.Evented
import EventLoop.Proofs.Registration.Table

/-!
# Who holds which token

Several resources are registered with one loop, and none of them looks at the
others.  Each remembers the token it was given, and the table remembers the
descriptor it was given with the token.  What one of them does to its own
registration changes the table under that token only.

## Main definitions

* `Evented.holding` — the token a resource holds, and its descriptor.
* `Transfer l l' a b` — a holding changes from `a` to `b`, and with it the table.
* `Tenancy holding l` — every holding is in the table, and no token is held twice.

## Main results

* `Evented.transfer_register`, …, `Evented.transfer_drop` — each operation on a
  resource is a transfer.
* `Tenancy.transfer` — **a transfer of one holding leaves the others alone.**
-/

namespace EventLoop

/-- A token and the descriptor it was taken for. -/
abbrev Holding := Token × Option Nat

/-- The descriptor registered under a token. -/
def Loop.lodged (l : Loop) (token : Token) : Option (Option Nat) :=
  (l.system.table.get? token).map (·.descriptor)

/-- The token a resource holds, and its descriptor. -/
def Evented.holding {ι : Type} [Pollable ι] (e : Evented ι) : Option Holding :=
  e.token.map fun token => (token, Pollable.descriptor e.inner)

/-- How a holding and the table of a loop change together. -/
inductive Transfer (l l' : Loop) : Option Holding → Option Holding → Prop
  /-- Nothing is taken and nothing given back. -/
  | keep {a : Option Holding} (h : ∀ j, l'.lodged j = l.lodged j) : Transfer l l' a a
  /-- A token is taken that was free. -/
  | take {token : Token} {d : Option Nat} (hfree : l.lodged token = none)
      (h : ∀ j, l'.lodged j = if j = token then some d else l.lodged j) :
      Transfer l l' none (some (token, d))
  /-- The token is given back. -/
  | give {token : Token} {d : Option Nat}
      (h : ∀ j, l'.lodged j = if j = token then none else l.lodged j) :
      Transfer l l' (some (token, d)) none

/-- Every holding is in the table of the loop, and no token is held twice. -/
structure Tenancy {X : Type} (holding : X → Option Holding) (l : Loop) : Prop where
  /-- What is held is in the table. -/
  held : ∀ x token d, holding x = some (token, d) → l.lodged token = some d
  /-- Whoever holds the same token is the same. -/
  unique : ∀ x y token d d', holding x = some (token, d) → holding y = some (token, d') → x = y

namespace Transfer

variable {l l' l'' : Loop} {a b : Option Holding}

/-- What leaves the descriptors where they are may come first. -/
theorem after (hk : ∀ j, l'.lodged j = l.lodged j) (h : Transfer l' l'' a b) :
    Transfer l l'' a b := by
  cases h with
  | keep h => exact .keep fun j => (h j).trans (hk j)
  | take hfree h =>
    refine .take ((hk _).symm.trans hfree) fun j => ?_
    rw [h, hk]
  | give h =>
    refine .give fun j => ?_
    rw [h, hk]

/-- What leaves the descriptors where they are may come last. -/
theorem before (h : Transfer l l' a b) (hk : ∀ j, l''.lodged j = l'.lodged j) :
    Transfer l l'' a b := by
  cases h with
  | keep h => exact .keep fun j => (hk j).trans (h j)
  | take hfree h => exact .take hfree fun j => (hk j).trans (h j)
  | give h => exact .give fun j => (hk j).trans (h j)

end Transfer

/-! ### One loop -/

namespace Loop

variable {l l' : Loop} {fd : Option Nat} {token : Token} {i : Interest} {e : Failure}

theorem lodged_eq_none_iff : l.lodged token = none ↔ l.system.table.get? token = none := by
  unfold lodged
  rw [Option.map_eq_none_iff]

theorem lodged_eq_some_iff {d : Option Nat} : l.lodged token = some d ↔
    ∃ r, l.system.table.get? token = some r ∧ r.descriptor = d := by
  unfold lodged
  rw [Option.map_eq_some_iff]

theorem isRegistered_iff :
    l.system.isRegistered token = true ↔ ∃ d, l.lodged token = some d := by
  unfold System.isRegistered lodged
  rw [Slab.contains_iff]
  constructor
  · rintro ⟨r, hr⟩
    exact ⟨r.descriptor, by rw [hr]; rfl⟩
  · rintro ⟨d, hd⟩
    obtain ⟨r, hr, -⟩ := Option.map_eq_some_iff.mp hd
    exact ⟨r, hr⟩

theorem isRegistered_eq_false_iff :
    l.system.isRegistered token = false ↔ l.lodged token = none := by
  unfold System.isRegistered
  rw [Slab.contains_eq_false_iff, lodged_eq_none_iff]

/-- One token changes in the table. -/
theorem lodged_change {o : Option Registration}
    (hget : ∀ j, l'.system.table.get? j = if j = token then o else l.system.table.get? j)
    (j : Token) : l'.lodged j = if j = token then o.map (·.descriptor) else l.lodged j := by
  unfold lodged
  rw [hget]
  split <;> rfl

theorem transfer_registerAt_ok (h : l.registerAt fd token i = (.ok (), l')) :
    Transfer l l' none (some (token, fd)) :=
  .take (lodged_eq_none_iff.mpr (vacant_of_registerAt_ok h))
    (lodged_change (get?_registerAt_ok h))

theorem lodged_registerAt_error (h : l.registerAt fd token i = (.error e, l')) (j : Token) :
    l'.lodged j = l.lodged j := by
  unfold lodged
  rw [get?_registerAt_error h]

/-- Another interest is the same descriptor. -/
theorem lodged_reregister (l : Loop) (token : Token) (i : Interest) (j : Token) :
    (l.reregister token i).2.lodged j = l.lodged j := by
  rcases h : l.reregister token i with ⟨r, l'⟩
  cases r with
  | error e => rw [reregister_error h]
  | ok u =>
    obtain ⟨r, host, hr, -, -⟩ := reregister_ok h
    unfold lodged
    rw [get?_reregister_ok h hr]
    by_cases hj : j = token
    · rw [if_pos hj, hj, hr]
      rfl
    · rw [if_neg hj]

theorem transfer_deregister (l : Loop) (token : Token) (d : Option Nat) :
    Transfer l (l.deregister token).2 (some (token, d)) none :=
  .give (lodged_change (get?_deregister l token))

end Loop

/-! ### One resource -/

namespace Evented

variable {ι : Type} [Pollable ι] {e e' : Evented ι} {l l' : Loop} {token : Token} {f : Failure}

theorem holding_eq_none_iff : e.holding = none ↔ e.token = none := by
  unfold holding
  rw [Option.map_eq_none_iff]

theorem holding_eq_some_iff {d : Option Nat} : e.holding = some (token, d) ↔
    e.token = some token ∧ Pollable.descriptor e.inner = d := by
  unfold holding
  constructor
  · intro h
    obtain ⟨t, ht, heq⟩ := Option.map_eq_some_iff.mp h
    cases heq
    exact ⟨ht, rfl⟩
  · rintro ⟨ht, rfl⟩
    rw [ht]
    rfl

/-- A resource that could be registered was not registered before. -/
theorem registerAt_ok (h : e.registerAt token l = (.ok (), e', l')) : e.token = none ∧
    e' = { e with token := some token } ∧
    l.registerAt (Pollable.descriptor e.inner) token e.interest = (.ok (), l') := by
  unfold registerAt at h
  cases ht : e.token with
  | some t => rw [ht] at h; cases h
  | none =>
    rw [ht] at h
    dsimp only at h
    split at h
    · next l'' hr =>
      cases h
      exact ⟨rfl, rfl, hr⟩
    · cases h

/-- A registration that fails leaves resource and table as they were. -/
theorem registerAt_error (h : e.registerAt token l = (.error f, e', l')) :
    e' = e ∧ ∀ j, l'.lodged j = l.lodged j := by
  unfold registerAt at h
  cases ht : e.token with
  | some t =>
    rw [ht] at h
    cases h
    exact ⟨rfl, fun _ => rfl⟩
  | none =>
    rw [ht] at h
    dsimp only at h
    split at h
    · cases h
    · next f' l'' hr =>
      cases h
      exact ⟨rfl, Loop.lodged_registerAt_error hr⟩

theorem transfer_registerAt (e : Evented ι) (token : Token) (l : Loop) :
    Transfer l (e.registerAt token l).2.2 e.holding (e.registerAt token l).2.1.holding := by
  rcases h : e.registerAt token l with ⟨r, e', l'⟩
  cases r with
  | error f =>
    obtain ⟨rfl, hkeep⟩ := registerAt_error h
    exact .keep hkeep
  | ok u =>
    obtain ⟨hnone, rfl, hr⟩ := registerAt_ok h
    rw [holding_eq_none_iff.mpr hnone]
    exact Loop.transfer_registerAt_ok hr

/-- `register` is `registerAt` with the next token. -/
theorem register_eq (e : Evented ι) (l : Loop) :
    e.register l = e.registerAt l.system.table.vacantKey l := by
  unfold register registerAt
  cases e.token with
  | some t => rfl
  | none =>
    dsimp only
    rw [Loop.register_eq]
    rcases l.registerAt (Pollable.descriptor e.inner) l.system.table.vacantKey e.interest
      with ⟨r, l'⟩
    cases r <;> rfl

theorem transfer_register (e : Evented ι) (l : Loop) :
    Transfer l (e.register l).2.2 e.holding (e.register l).2.1.holding := by
  rw [register_eq]
  exact transfer_registerAt e _ l

theorem holding_reregister (e : Evented ι) (i : Interest) (l : Loop) :
    (e.reregister i l).2.1.holding = e.holding := by
  obtain ⟨inner, token, interest, armed, readable, writable⟩ := e
  cases token with
  | none => rfl
  | some token =>
    unfold reregister
    dsimp only
    rcases l.reregister token i with ⟨r, l'⟩
    cases r <;> rfl

omit [Pollable ι] in
theorem lodged_reregister (e : Evented ι) (i : Interest) (l : Loop) (j : Token) :
    (e.reregister i l).2.2.lodged j = l.lodged j := by
  unfold reregister
  cases e.token with
  | none => rfl
  | some token =>
    have hkeep := Loop.lodged_reregister l token i j
    dsimp only
    rcases hr : l.reregister token i with ⟨r, l'⟩
    rw [hr] at hkeep
    cases r <;> exact hkeep

theorem holding_deregister (e : Evented ι) (l : Loop) :
    (e.deregister l).2.1.holding = none := by
  rw [holding_eq_none_iff]
  unfold deregister
  cases ht : e.token with
  | none => exact ht
  | some token => rfl

theorem transfer_deregister (e : Evented ι) (l : Loop) :
    Transfer l (e.deregister l).2.2 e.holding none := by
  unfold deregister
  cases ht : e.token with
  | none =>
    rw [holding_eq_none_iff.mpr ht]
    exact .keep fun _ => rfl
  | some token =>
    rw [holding_eq_some_iff.mpr ⟨ht, rfl⟩]
    exact Loop.transfer_deregister l token _

/-- Going away is giving back, as far as the registrations are concerned. -/
theorem system_drop (e : Evented ι) (l : Loop) :
    (e.drop l).system = (e.deregister l).2.2.system := by
  unfold drop release
  dsimp only
  rcases e.deregister l with ⟨r, e', l'⟩
  cases r <;> rfl

theorem transfer_drop (e : Evented ι) (l : Loop) : Transfer l (e.drop l) e.holding none := by
  refine (transfer_deregister e l).before fun j => ?_
  unfold Loop.lodged
  rw [system_drop]

/-! #### What stays -/

omit [Pollable ι] in
theorem sameFrame_reregister (e : Evented ι) (i : Interest) (l : Loop) :
    l.SameFrame (e.reregister i l).2.2 := by
  unfold reregister
  cases e.token with
  | none => exact .refl l
  | some token =>
    have hframe := Loop.sameFrame_reregister l token i
    dsimp only
    rcases hr : l.reregister token i with ⟨r, l'⟩
    rw [hr] at hframe
    cases r <;> exact hframe

theorem sameFrame_registerAt (e : Evented ι) (token : Token) (l : Loop) :
    l.SameFrame (e.registerAt token l).2.2 := by
  unfold registerAt
  cases e.token with
  | some t => exact .refl l
  | none =>
    have hframe := Loop.sameFrame_registerAt l (Pollable.descriptor e.inner) token e.interest
    dsimp only
    rcases hr : l.registerAt (Pollable.descriptor e.inner) token e.interest with ⟨r, l'⟩
    rw [hr] at hframe
    cases r <;> exact hframe

omit [Pollable ι] in
theorem sameFrame_deregister (e : Evented ι) (l : Loop) :
    l.SameFrame (e.deregister l).2.2 := by
  unfold deregister
  cases e.token with
  | none => exact .refl l
  | some token => exact Loop.sameFrame_deregister l token

theorem sameFrame_drop (e : Evented ι) (l : Loop) : l.SameFrame (e.drop l) :=
  (sameFrame_deregister e l).trans (.of_system_eq (system_drop e l))

/-! #### What goes -/

/-- What was held is free afterwards, and the next to be issued. -/
theorem vacant_drop (ht : e.token = some token) {r : Registration}
    (hr : l.system.table.get? token = some r) (ho : l.system.table.offset ≤ token) :
    (e.drop l).system.table.get? token = none ∧ (e.drop l).system.table.vacantKey = token := by
  have htable : (e.drop l).system.table = (l.system.table.remove token).2 := by
    rw [system_drop]
    unfold deregister
    rw [ht]
    exact Loop.table_deregister l token
  rw [htable]
  refine ⟨?_, Slab.vacantKey_remove hr ho⟩
  rw [Slab.get?_remove, if_pos rfl]

end Evented

/-! ### All resources -/

namespace Tenancy

variable {X : Type} {holding holding' : X → Option Holding} {l l' : Loop}

/-- **A transfer of one holding leaves the others alone.** -/
theorem transfer (ht : Tenancy holding l) {x : X} {a b : Option Holding} (hx : holding x = a)
    (htr : Transfer l l' a b) (hx' : holding' x = b) (hother : ∀ y, y ≠ x → holding' y = holding y) :
    Tenancy holding' l' := by
  cases htr with
  | keep hk =>
    -- `x` holds after the change what it held before, like everybody else
    have heq : holding' = holding := by
      funext y
      by_cases hy : y = x
      · rw [hy, hx', hx]
      · exact hother y hy
    rw [heq]
    exact ⟨fun y t d h => (hk t).trans (ht.held y t d h), ht.unique⟩
  | @take token d hfree hk =>
    -- nobody else can hold a token that was free
    have hnot : ∀ y t d', y ≠ x → holding' y = some (t, d') → t ≠ token := by
      intro y t d' hy h heq
      rw [hother y hy] at h
      have := ht.held y t d' h
      rw [heq, hfree] at this
      cases this
    constructor
    · intro y t d' h
      rw [hk]
      by_cases hy : y = x
      · rw [hy, hx'] at h
        cases h
        exact if_pos rfl
      · rw [if_neg (hnot y t d' hy h)]
        rw [hother y hy] at h
        exact ht.held y t d' h
    · intro y z t d₁ d₂ h₁ h₂
      by_cases hy : y = x
      · by_cases hz : z = x
        · rw [hy, hz]
        · rw [hy, hx'] at h₁
          cases h₁
          exact absurd rfl (hnot z _ _ hz h₂)
      · by_cases hz : z = x
        · rw [hz, hx'] at h₂
          cases h₂
          exact absurd rfl (hnot y _ _ hy h₁)
        · rw [hother y hy] at h₁
          rw [hother z hz] at h₂
          exact ht.unique y z t d₁ d₂ h₁ h₂
  | @give token d hk =>
    -- whoever holds something now is not `x`, and held it before
    have hne : ∀ y t d', holding' y = some (t, d') → y ≠ x ∧ holding y = some (t, d') := by
      intro y t d' h
      by_cases hy : y = x
      · rw [hy, hx'] at h
        cases h
      · exact ⟨hy, (hother y hy).symm.trans h⟩
    constructor
    · intro y t d' h
      obtain ⟨hy, h⟩ := hne y t d' h
      have htok : t ≠ token := by
        rintro rfl
        exact hy (ht.unique y x t d' d h hx)
      rw [hk, if_neg htok]
      exact ht.held y t d' h
    · intro y z t d₁ d₂ h₁ h₂
      exact ht.unique y z t d₁ d₂ (hne y t d₁ h₁).2 (hne z t d₂ h₂).2

/-- The table may change in every way that leaves the descriptors where they are. -/
theorem congr (ht : Tenancy holding l) (hk : ∀ j, l'.lodged j = l.lodged j) :
    Tenancy holding l' :=
  ⟨fun y t d h => (hk t).trans (ht.held y t d h), ht.unique⟩

end Tenancy
end EventLoop

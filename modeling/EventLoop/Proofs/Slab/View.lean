import EventLoop.Slab
import Mathlib.Data.List.Basic

/-!
# The finite map behind a slot table

Every operation on a slot table, seen through `Slab.get?`.  The slots, the free
keys and the first unused key may move in any way an operation likes; only what
a look-up finds is stated here.

## Main results

* `get?_place`, `get?_vacate` — the two ways a slot changes.
* `insert_ok`, `insertAt_ok`, `remove_some` — what a successful operation does.
* `mem_entries_iff` — the live entries are the graph of `get?`.
-/

namespace EventLoop
namespace Slab

variable {α : Type}

/-! ### Slots -/

theorem contains_iff {s : Slab α} {key : Nat} :
    s.contains key = true ↔ ∃ v, s.get? key = some v := by
  rw [contains, Option.isSome_iff_exists]

theorem contains_eq_false_iff {s : Slab α} {key : Nat} :
    s.contains key = false ↔ s.get? key = none := by
  rw [contains, Option.isSome_eq_false_iff, Option.isNone_iff_eq_none]

/-- A live key lies within the slots. -/
theorem lt_size_of_get? {s : Slab α} {key : Nat} {v : α} (h : s.get? key = some v) :
    key < s.slots.size := by
  by_contra hge
  rw [get?, Array.getElem?_eq_none (by omega)] at h
  simp at h

theorem get?_place (s : Slab α) (key : Nat) (v : α) (j : Nat) :
    (s.place key v).get? j = if j = key then some v else s.get? j := by
  simp only [get?, place, Array.getElem?_setIfInBounds, Array.size_append,
    Array.size_replicate, Array.getElem?_append, Array.getElem?_replicate]
  by_cases hj : j = key
  · subst hj
    rw [if_pos rfl, if_pos rfl, if_pos (by omega)]
    rfl
  · rw [if_neg (Ne.symm hj), if_neg hj]
    by_cases hlt : j < s.slots.size
    · rw [if_pos hlt]
    · -- a slot added to make room is empty, as if it were not there
      rw [if_neg hlt, Array.getElem?_eq_none (by omega)]
      split <;> rfl

theorem free_place (s : Slab α) (key : Nat) (v : α) : (s.place key v).free = s.free := rfl

theorem next_place (s : Slab α) (key : Nat) (v : α) : (s.place key v).next = s.next := rfl

theorem live_place (s : Slab α) (key : Nat) (v : α) : (s.place key v).live = s.live + 1 := rfl

theorem offset_place (s : Slab α) (key : Nat) (v : α) : (s.place key v).offset = s.offset := rfl

theorem policy_place (s : Slab α) (key : Nat) (v : α) : (s.place key v).policy = s.policy := rfl

theorem get?_vacate (s : Slab α) (key j : Nat) :
    (s.vacate key).get? j = if j = key then none else s.get? j := by
  simp only [get?, vacate, Array.getElem?_setIfInBounds]
  by_cases hj : j = key
  · subst hj
    rw [if_pos rfl, if_pos rfl]
    split <;> rfl
  · rw [if_neg (Ne.symm hj), if_neg hj]

@[simp] theorem get?_claim (s : Slab α) (key j : Nat) : (s.claim key).get? j = s.get? j := by
  unfold claim
  split
  · rfl
  · split <;> rfl

@[simp] theorem live_claim (s : Slab α) (key : Nat) : (s.claim key).live = s.live := by
  unfold claim
  split
  · rfl
  · split <;> rfl

@[simp] theorem offset_claim (s : Slab α) (key : Nat) : (s.claim key).offset = s.offset := by
  unfold claim
  split
  · rfl
  · split <;> rfl

@[simp] theorem policy_claim (s : Slab α) (key : Nat) : (s.claim key).policy = s.policy := by
  unfold claim
  split
  · rfl
  · split <;> rfl

/-! ### Adding -/

/-- **What an `insert` that succeeds does**: the key is the one announced, and it comes from
the free keys if there are any. -/
theorem insert_ok {s t : Slab α} {v : α} {key : Nat} (h : s.insert v = .ok (key, t)) :
    s.policy.admits s.live = true ∧
      ((∃ rest, s.free = key :: rest ∧ t = { s with free := rest }.place key v) ∨
        (s.free = [] ∧ key = s.next ∧ t = { s with next := s.next + 1 }.place key v)) := by
  unfold insert at h
  split at h
  · next hadm =>
    refine ⟨hadm, ?_⟩
    cases hf : s.free with
    | nil =>
      simp only [hf, Except.ok.injEq, Prod.mk.injEq] at h
      obtain ⟨rfl, rfl⟩ := h
      exact Or.inr ⟨rfl, rfl, rfl⟩
    | cons k rest =>
      simp only [hf, Except.ok.injEq, Prod.mk.injEq] at h
      obtain ⟨rfl, rfl⟩ := h
      exact Or.inl ⟨rest, rfl, rfl⟩
  · cases h

theorem insert_error {s : Slab α} {v : α} {why : Refusal} (h : s.insert v = .error why) :
    why = .full ∧ s.policy.admits s.live = false := by
  unfold insert at h
  split at h
  · split at h <;> cases h
  · next hadm =>
    exact ⟨(Except.error.inj h).symm, Bool.not_eq_true _ ▸ hadm⟩

theorem key_of_insert {s t : Slab α} {v : α} {key : Nat} (h : s.insert v = .ok (key, t)) :
    key = s.vacantKey := by
  rcases (insert_ok h).2 with ⟨rest, hf, -⟩ | ⟨hf, hk, -⟩
  · rw [vacantKey, hf]; rfl
  · rw [vacantKey, hf, hk]; rfl

theorem get?_insert {s t : Slab α} {v : α} {key : Nat} (h : s.insert v = .ok (key, t))
    (j : Nat) : t.get? j = if j = key then some v else s.get? j := by
  rcases (insert_ok h).2 with ⟨rest, -, rfl⟩ | ⟨-, -, rfl⟩
  · rw [get?_place]; rfl
  · rw [get?_place]; rfl

/-- **What an `insertAt` that succeeds does.** -/
theorem insertAt_ok {s t : Slab α} {v : α} {key : Nat} (h : s.insertAt key v = .ok t) :
    s.get? key = none ∧ s.policy.admits s.live = true ∧ t = (s.claim key).place key v := by
  unfold insertAt at h
  split at h
  · cases h
  · next hc =>
    split at h
    · next hadm =>
      rw [Bool.not_eq_true, contains_eq_false_iff] at hc
      exact ⟨hc, hadm, (Except.ok.inj h).symm⟩
    · cases h

theorem insertAt_error {s : Slab α} {key : Nat} {v : α} {why : Refusal}
    (h : s.insertAt key v = .error why) :
    (why = .taken key ∧ s.contains key = true) ∨
      (why = .full ∧ s.contains key = false ∧ s.policy.admits s.live = false) := by
  -- the key is looked at before the room
  unfold insertAt at h
  split at h
  · next hc => exact Or.inl ⟨(Except.error.inj h).symm, hc⟩
  · next hc =>
    split at h
    · cases h
    · next hadm =>
      exact Or.inr ⟨(Except.error.inj h).symm, Bool.not_eq_true _ ▸ hc, Bool.not_eq_true _ ▸ hadm⟩

theorem get?_insertAt {s t : Slab α} {v : α} {key : Nat} (h : s.insertAt key v = .ok t)
    (j : Nat) : t.get? j = if j = key then some v else s.get? j := by
  obtain ⟨-, -, rfl⟩ := insertAt_ok h
  rw [get?_place, get?_claim]

theorem offset_insert {s t : Slab α} {v : α} {key : Nat} (h : s.insert v = .ok (key, t)) :
    t.offset = s.offset := by
  rcases (insert_ok h).2 with ⟨rest, -, rfl⟩ | ⟨-, -, rfl⟩ <;> rfl

theorem policy_insert {s t : Slab α} {v : α} {key : Nat} (h : s.insert v = .ok (key, t)) :
    t.policy = s.policy := by
  rcases (insert_ok h).2 with ⟨rest, -, rfl⟩ | ⟨-, -, rfl⟩ <;> rfl

theorem offset_insertAt {s t : Slab α} {v : α} {key : Nat} (h : s.insertAt key v = .ok t) :
    t.offset = s.offset := by
  obtain ⟨-, -, rfl⟩ := insertAt_ok h
  exact offset_claim s key

theorem policy_insertAt {s t : Slab α} {v : α} {key : Nat} (h : s.insertAt key v = .ok t) :
    t.policy = s.policy := by
  obtain ⟨-, -, rfl⟩ := insertAt_ok h
  exact policy_claim s key

/-! ### Taking out -/

theorem remove_none {s : Slab α} {key : Nat} (h : s.get? key = none) :
    s.remove key = (none, s) := by
  rw [remove, h]

/-- **What a `remove` of a live key does**: it hands the entry over, and the key is free
unless it lies below the offset. -/
theorem remove_some {s : Slab α} {key : Nat} {v : α} (h : s.get? key = some v) :
    s.remove key = (some v,
      if s.offset ≤ key then { s.vacate key with free := key :: s.free } else s.vacate key) := by
  rw [remove, h]
  rfl

theorem fst_remove (s : Slab α) (key : Nat) : (s.remove key).1 = s.get? key := by
  cases h : s.get? key with
  | none => rw [remove_none h]
  | some v => rw [remove_some h]

theorem get?_remove (s : Slab α) (key j : Nat) :
    (s.remove key).2.get? j = if j = key then none else s.get? j := by
  cases h : s.get? key with
  | none =>
    rw [remove_none h]
    split
    · next hj => rw [hj, h]
    · rfl
  | some v =>
    rw [remove_some h]
    -- whether the key is offered again does not show in a lookup
    have hfree : ∀ t : Slab α, (if s.offset ≤ key then { t with free := key :: s.free }
        else t).get? j = t.get? j := by
      intro t; split <;> rfl
    rw [hfree, get?_vacate]

@[simp] theorem offset_remove (s : Slab α) (key : Nat) : (s.remove key).2.offset = s.offset := by
  unfold remove
  split
  · rfl
  · dsimp only
    split <;> rfl

@[simp] theorem policy_remove (s : Slab α) (key : Nat) : (s.remove key).2.policy = s.policy := by
  unfold remove
  split
  · rfl
  · dsimp only
    split <;> rfl

/-- A key that `remove` took out is issued next. -/
theorem vacantKey_remove {s : Slab α} {key : Nat} {v : α} (h : s.get? key = some v)
    (hoff : s.offset ≤ key) : (s.remove key).2.vacantKey = key := by
  rw [remove_some h, if_pos hoff]
  rfl

/-- Adding under a key and taking out again leaves the map as it was. -/
theorem get?_remove_insertAt {s t : Slab α} {v : α} {key : Nat}
    (h : s.insertAt key v = .ok t) (j : Nat) : (t.remove key).2.get? j = s.get? j := by
  rw [get?_remove, get?_insertAt h]
  split
  · next hj => rw [hj, (insertAt_ok h).1]
  · rfl

theorem get?_retire (s : Slab α) (key j : Nat) :
    (s.retire key).get? j = if j = key then none else s.get? j := by
  unfold retire
  split
  · exact get?_vacate s key j
  · next hc =>
    rw [Bool.not_eq_true, contains_eq_false_iff] at hc
    split
    · next hj => rw [hj]; exact hc
    · rfl

@[simp] theorem offset_retire (s : Slab α) (key : Nat) : (s.retire key).offset = s.offset := by
  unfold retire
  split <;> rfl

@[simp] theorem policy_retire (s : Slab α) (key : Nat) : (s.retire key).policy = s.policy := by
  unfold retire
  split <;> rfl

/-! ### Writing -/

theorem get?_set (s : Slab α) (key : Nat) (v : α) (j : Nat) :
    (s.set key v).get? j = if j = key ∧ s.contains key = true then some v else s.get? j := by
  unfold set
  by_cases hc : s.contains key = true
  · obtain ⟨w, hw⟩ := contains_iff.mp hc
    have hlt := lt_size_of_get? hw
    rw [if_pos hc]
    simp only [get?, Array.getElem?_setIfInBounds]
    by_cases hj : j = key
    · subst hj
      rw [if_pos rfl, if_pos hlt, if_pos ⟨rfl, hc⟩]
      rfl
    · rw [if_neg (Ne.symm hj), if_neg fun h => hj h.1]
  -- nothing under the key: nothing is written
  · rw [if_neg hc, if_neg fun h => hc h.2]

theorem get?_set_of_vacant {s : Slab α} (key : Nat) (v : α) {j : Nat} (h : s.get? j = none) :
    (s.set key v).get? j = none := by
  rw [get?_set, if_neg, h]
  rintro ⟨rfl, hc⟩
  rw [contains_eq_false_iff.mpr h] at hc
  cases hc

@[simp] theorem free_set (s : Slab α) (key : Nat) (v : α) : (s.set key v).free = s.free := by
  unfold set; split <;> rfl

@[simp] theorem next_set (s : Slab α) (key : Nat) (v : α) : (s.set key v).next = s.next := by
  unfold set; split <;> rfl

@[simp] theorem live_set (s : Slab α) (key : Nat) (v : α) : (s.set key v).live = s.live := by
  unfold set; split <;> rfl

@[simp] theorem offset_set (s : Slab α) (key : Nat) (v : α) :
    (s.set key v).offset = s.offset := by
  unfold set; split <;> rfl

@[simp] theorem policy_set (s : Slab α) (key : Nat) (v : α) :
    (s.set key v).policy = s.policy := by
  unfold set; split <;> rfl

/-! ### Entries -/

/-- **The live entries are the graph of `get?`.** -/
theorem mem_entries_iff {s : Slab α} {key : Nat} {v : α} :
    (key, v) ∈ s.entries ↔ s.get? key = some v := by
  simp only [entries, List.mem_filterMap, Prod.exists, List.mk_mem_zipIdx_iff_getElem?,
    Option.map_eq_some_iff, Prod.mk.injEq, get?, ← Array.getElem?_toList]
  constructor
  · rintro ⟨slot, k, hslot, w, rfl, rfl, rfl⟩
    rw [hslot]
    rfl
  · intro h
    rw [Option.join_eq_some_iff] at h
    exact ⟨some v, key, h, v, rfl, rfl, rfl⟩

end Slab
end EventLoop

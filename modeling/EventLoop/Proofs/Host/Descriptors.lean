import EventLoop.Host.Multiplexer
import Mathlib.Data.List.Basic

/-!
# Descriptors and what multiplexers watch

What opening a descriptor and asking a multiplexer do to the table of open
descriptors, seen through `Host.object?`.

## Main definitions

* `Host.Watchable` — a descriptor a multiplexer may watch: open, and no regular file.

## Main results

* `allocate_ok` — a new descriptor takes a number that was free.
* `control_ok` — what a multiplexer that complies has checked and changed.
* `control_eq` — what it answers for a descriptor it may watch.
-/

namespace EventLoop
namespace Host

variable {h h' : Host} {fd : Nat} {o : Object}

/-! ### Objects -/

/-- The descriptor is open and may be watched. -/
def Watchable (h : Host) (fd : Nat) : Prop := ∃ o, h.object? fd = some o ∧ o ≠ .file

@[simp] theorem object?_note (h : Host) (n : Notice) (fd : Nat) :
    (h.note n).object? fd = h.object? fd := rfl

@[simp] theorem objectOf?_some (h : Host) (fd : Nat) : h.objectOf? (some fd) = h.object? fd := rfl

theorem lt_size_of_object? (ho : h.object? fd = some o) : fd < h.descriptors.size := by
  by_contra hge
  rw [object?, Array.getElem?_eq_none (by omega)] at ho
  simp at ho

theorem object?_setObject {o' : Object} (ho : h.object? fd = some o') (o : Object) (j : Nat) :
    (h.setObject fd o).object? j = if j = fd then some o else h.object? j := by
  have hlt := lt_size_of_object? ho
  simp only [object?, setObject, Array.getElem?_setIfInBounds]
  by_cases hj : j = fd
  · subst hj
    rw [if_pos rfl, if_pos hlt, if_pos rfl]
    rfl
  · rw [if_neg (Ne.symm hj), if_neg hj]

theorem Watchable.setObject {f : Nat} {o' : Object} (hf : h.Watchable f)
    (ho : h.object? fd = some o') (hne : o ≠ .file) : (h.setObject fd o).Watchable f := by
  obtain ⟨w, hw, hwf⟩ := hf
  by_cases hj : f = fd
  · exact ⟨o, by rw [object?_setObject ho, if_pos hj], hne⟩
  · exact ⟨w, by rw [object?_setObject ho, if_neg hj]; exact hw, hwf⟩

/-! ### Opening -/

theorem vacant_spec (h : Host) : h.vacant ≤ h.descriptors.size ∧ h.object? h.vacant = none := by
  unfold vacant object?
  cases hf : h.descriptors.toList.findIdx? Option.isNone with
  | none =>
    -- no gap: the number behind the last
    rw [Option.getD_none, Array.getElem?_eq_none (Nat.le_refl _)]
    exact ⟨Nat.le_refl _, rfl⟩
  | some i =>
    -- the first gap
    obtain ⟨hlt, hnone, -⟩ := List.findIdx?_eq_some_iff_getElem.mp hf
    rw [Array.length_toList] at hlt
    rw [Array.getElem_toList, Option.isNone_iff_eq_none] at hnone
    rw [Option.getD_some, Array.getElem?_eq_getElem hlt, hnone]
    exact ⟨Nat.le_of_lt hlt, rfl⟩

/-- **A new descriptor takes a number that was free**, and nothing else changes. -/
theorem allocate_ok (ha : h.allocate o = .ok (fd, h')) :
    h.object? fd = none ∧ ∀ j, h'.object? j = if j = fd then some o else h.object? j := by
  unfold allocate at ha
  split at ha
  · simp only [Except.ok.injEq, Prod.mk.injEq] at ha
    obtain ⟨rfl, rfl⟩ := ha
    obtain ⟨hle, hfree⟩ := vacant_spec h
    refine ⟨hfree, fun j => ?_⟩
    by_cases hlt : h.vacant < h.descriptors.size
    · simp only [object?, if_pos hlt, Array.getElem?_setIfInBounds]
      by_cases hj : j = h.vacant
      · rw [if_pos hj.symm, if_pos hj]; rfl
      · rw [if_neg (Ne.symm hj), if_neg hj]
    · -- no number below the size is free: the table grows by one
      have heq : h.vacant = h.descriptors.size := by omega
      simp only [object?, if_neg hlt, Array.getElem?_setIfInBounds, Array.size_push,
        Array.getElem?_push]
      by_cases hj : j = h.vacant
      · rw [if_pos hj.symm, if_pos (by omega), if_pos hj]; rfl
      · rw [if_neg (Ne.symm hj), if_neg (by omega), if_neg hj]
  · cases ha

/-! ### Asking a multiplexer -/

theorem watches_eq {p : Nat} {watches : List Watch}
    (hp : h.object? p = some (.multiplexer watches)) : h.watches (some p) = watches := by
  unfold Host.watches
  rw [objectOf?_some, hp]

/-- **What a multiplexer that complies has checked and changed.** -/
theorem control_ok {poller fd : Option Nat} {c : Control} (hc : h.control poller fd c = .ok h') :
    ∃ p f watches watches', poller = some p ∧ fd = some f ∧ p ≠ f ∧
      h.object? p = some (.multiplexer watches) ∧ h.Watchable f ∧
      c.apply watches f = .ok watches' ∧ h' = h.setObject p (.multiplexer watches') := by
  -- every other branch is a refusal
  unfold control at hc
  split at hc
  · next p f =>
    split at hc
    · cases hc
    · cases hc
    · cases hc
    · next watches o hnone hp hf =>
      split at hc
      · cases hc
      · next hne =>
        cases happ : c.apply watches f with
        | error e => rw [happ] at hc; cases hc
        | ok watches' =>
          rw [happ] at hc
          refine ⟨p, f, watches, watches', rfl, rfl, hne, hp, ⟨o, hf, ?_⟩, happ, ?_⟩
          · rintro rfl
            exact hnone rfl
          · exact (Except.ok.inj hc).symm
    · cases hc
  · cases hc

/-- What a multiplexer answers for a descriptor it may watch. -/
theorem control_eq {p f : Nat} {watches : List Watch} (hne : p ≠ f)
    (hp : h.object? p = some (.multiplexer watches)) (hf : h.Watchable f) (c : Control) :
    h.control (some p) (some f) c
      = (c.apply watches f).map fun watches => h.setObject p (.multiplexer watches) := by
  obtain ⟨o, ho, hfile⟩ := hf
  unfold control
  simp only [hp, ho]
  -- a regular file is the one object that cannot be watched
  cases o with
  | file => exact absurd rfl hfile
  | _ x => exact if_neg hne

end Host

/-! ### Changing what is watched -/

namespace Control

variable {watches watches' : List Watch} {fd : Nat} {token : Token} {mask : Mask}

theorem any_descriptor_iff : watches.any (·.descriptor == fd) = true ↔
    fd ∈ watches.map (·.descriptor) := by
  simp only [List.any_eq_true, beq_iff_eq, List.mem_map]

theorem apply_add_ok (h : apply watches fd (.add token mask) = .ok watches') :
    fd ∉ watches.map (·.descriptor) ∧ watches' = watches ++ [⟨fd, token, mask⟩] := by
  simp only [apply] at h
  split at h
  · cases h
  · next hany =>
    rw [any_descriptor_iff] at hany
    exact ⟨hany, (Except.ok.inj h).symm⟩

theorem apply_modify_ok (h : apply watches fd (.modify token mask) = .ok watches') :
    fd ∈ watches.map (·.descriptor) ∧
      watches' = watches.map fun w => if w.descriptor = fd then ⟨fd, token, mask⟩ else w := by
  simp only [apply] at h
  split at h
  · next hany =>
    rw [any_descriptor_iff] at hany
    exact ⟨hany, (Except.ok.inj h).symm⟩
  · cases h

theorem apply_remove_of_mem (h : fd ∈ watches.map (·.descriptor)) :
    apply watches fd .remove = .ok (watches.filter (·.descriptor != fd)) := by
  simp only [apply]
  rw [if_pos (any_descriptor_iff.mpr h)]

/-- What is watched once a descriptor that was watched is watched differently. -/
theorem mem_replace (h : fd ∈ watches.map (·.descriptor)) {new w : Watch} :
    w ∈ watches.map (fun w => if w.descriptor = fd then new else w) ↔
      w = new ∨ (w ∈ watches ∧ w.descriptor ≠ fd) := by
  rw [List.mem_map]
  constructor
  · rintro ⟨w', hw', rfl⟩
    by_cases hd : w'.descriptor = fd
    · rw [if_pos hd]
      exact Or.inl rfl
    · rw [if_neg hd]
      exact Or.inr ⟨hw', hd⟩
  · rintro (rfl | ⟨hw, hd⟩)
    · obtain ⟨w', hw', hd⟩ := List.mem_map.mp h
      exact ⟨w', hw', if_pos hd⟩
    · exact ⟨w, hw, if_neg hd⟩

/-- Watching a descriptor differently changes no descriptor. -/
theorem map_descriptor_replace (watches : List Watch) (fd : Nat) (token : Token) (mask : Mask) :
    (watches.map fun w => if w.descriptor = fd then ⟨fd, token, mask⟩ else w).map
      (·.descriptor) = watches.map (·.descriptor) := by
  rw [List.map_map]
  refine List.map_congr_left fun w _ => ?_
  rw [Function.comp_apply]
  -- the new watch stands under the descriptor of the one it replaces
  by_cases hd : w.descriptor = fd
  · rw [if_pos hd]
    exact hd.symm
  · rw [if_neg hd]

end Control

end EventLoop

import EventLoop.Proofs.Slab.View

/-!
# Well-formed slot tables

The keys between the offset and the first unused one are live, free or
withdrawn.  A free key is free once, and holds no entry; what is counted as live
is what the slots hold, and the ceiling is kept.

## Main definitions

* `Slab.WellFormed` — the invariant.

## Main results

* `WellFormed.insert`, `WellFormed.insertAt`, `WellFormed.remove`, `WellFormed.retire`,
  `WellFormed.set` — every operation keeps it.
* `WellFormed.get?_vacantKey` — **the next key is never a live one.**
* `WellFormed.length_entries_le` — a bounded table holds at most its limit.
-/

namespace EventLoop
namespace Slab

variable {α : Type} {s t : Slab α} {key : Nat} {v : α}

/-- What every operation on a slot table keeps. -/
structure WellFormed (s : Slab α) : Prop where
  /-- The fresh keys begin at the offset or past it. -/
  offset_le_next : s.offset ≤ s.next
  /-- No key is free twice. -/
  free_nodup : s.free.Nodup
  /-- Free keys may be issued. -/
  offset_le_of_free : ∀ k ∈ s.free, s.offset ≤ k
  /-- Free keys are not fresh. -/
  free_lt_next : ∀ k ∈ s.free, k < s.next
  /-- Free keys hold no entry. -/
  free_vacant : ∀ k ∈ s.free, s.get? k = none
  /-- Fresh keys hold no entry. -/
  fresh_vacant : ∀ k, s.next ≤ k → s.get? k = none
  /-- The live entries are counted. -/
  count_eq_live : s.slots.countP Option.isSome = s.live
  /-- The ceiling is kept. -/
  live_le : ∀ n, s.policy = .bounded n → s.live ≤ n

/-! ### Counting entries -/

theorem length_entries (s : Slab α) : s.entries.length = s.slots.countP Option.isSome := by
  rw [entries, List.length_filterMap_eq_countP]
  have hfst : (fun p : Option α × Nat => (p.1.map fun v => (p.2, v)).isSome)
      = Option.isSome ∘ Prod.fst := by
    funext p
    exact Option.isSome_map
  change List.countP (fun p : Option α × Nat => (p.1.map fun v => (p.2, v)).isSome) _ = _
  rw [hfst, ← List.countP_map, List.zipIdx_map_fst, Array.countP_toList]

theorem countP_place (h : s.get? key = none) (v : α) :
    (s.place key v).slots.countP Option.isSome = s.slots.countP Option.isSome + 1 := by
  let grown := s.slots ++ Array.replicate (key + 1 - s.slots.size) (none : Option α)
  have hlt : key < grown.size := by
    simp only [grown, Array.size_append, Array.size_replicate]; omega
  -- the slot written to was empty, whether it was there before or not
  have hslot : grown[key].isSome = false := by
    have hget : (grown[key]?).join = s.get? key := by
      simp only [grown, get?, Array.getElem?_append, Array.getElem?_replicate]
      split
      · rfl
      · rw [Array.getElem?_eq_none (by omega)]
        split <;> rfl
    rw [h, Array.getElem?_eq_getElem hlt, Option.join_some] at hget
    rw [hget]; rfl
  have hgrown : grown.countP Option.isSome = s.slots.countP Option.isSome := by
    simp [grown, Array.countP_replicate]
  change (grown.setIfInBounds key (some v)).countP Option.isSome = _
  rw [Array.setIfInBounds, dif_pos hlt, Array.countP_set, hslot, hgrown]
  simp

theorem getElem_slots (h : s.get? key = some v) (hlt : key < s.slots.size) :
    s.slots[key] = some v := by
  rw [get?, Array.getElem?_eq_getElem hlt, Option.join_some] at h
  exact h

theorem countP_pos_of_get? (h : s.get? key = some v) :
    0 < s.slots.countP Option.isSome := by
  have hlt := lt_size_of_get? h
  rw [Array.countP_pos_iff]
  exact ⟨some v, getElem_slots h hlt ▸ Array.getElem_mem hlt, rfl⟩

theorem countP_vacate (h : s.get? key = some v) :
    (s.vacate key).slots.countP Option.isSome + 1 = s.slots.countP Option.isSome := by
  have hlt := lt_size_of_get? h
  have hpos := countP_pos_of_get? h
  change (s.slots.setIfInBounds key none).countP Option.isSome + 1 = _
  rw [Array.setIfInBounds, dif_pos hlt, Array.countP_set, getElem_slots h hlt]
  simp only [Option.isSome_some, ↓reduceIte, Option.isSome_none, Bool.false_eq_true]
  omega

theorem countP_set (s : Slab α) (key : Nat) (v : α) :
    (s.set key v).slots.countP Option.isSome = s.slots.countP Option.isSome := by
  unfold set
  split
  · next hc =>
    obtain ⟨w, hw⟩ := contains_iff.mp hc
    have hlt := lt_size_of_get? hw
    -- one full slot is exchanged for another
    have hpos := countP_pos_of_get? hw
    change (s.slots.setIfInBounds key (some v)).countP Option.isSome = _
    rw [Array.setIfInBounds, dif_pos hlt, Array.countP_set, getElem_slots hw hlt]
    simp only [Option.isSome_some, ↓reduceIte]
    omega
  · rfl

/-! ### The steps of an operation -/

namespace WellFormed

/-- A key that holds an entry is not fresh. -/
theorem lt_next (hs : s.WellFormed) (h : s.get? key = some v) : key < s.next := by
  by_contra hge
  rw [hs.fresh_vacant key (by omega)] at h
  cases h

theorem of_empty (offset : Nat) (policy : Capacity) :
    (empty offset policy : Slab α).WellFormed where
  offset_le_next := Nat.le_refl _
  free_nodup := List.nodup_nil
  offset_le_of_free := fun _ hk => absurd hk List.not_mem_nil
  free_lt_next := fun _ hk => absurd hk List.not_mem_nil
  free_vacant := fun _ hk => absurd hk List.not_mem_nil
  fresh_vacant := fun k _ => get?_empty offset policy k
  count_eq_live := rfl
  live_le := fun n _ => Nat.zero_le n

/-- Writing an entry to a key that is neither live nor free nor fresh. -/
theorem place (hs : s.WellFormed) (hvac : s.get? key = none) (hfree : key ∉ s.free)
    (hnext : key < s.next) (hadm : s.policy.admits s.live = true) (v : α) :
    (s.place key v).WellFormed where
  offset_le_next := hs.offset_le_next
  free_nodup := hs.free_nodup
  offset_le_of_free := hs.offset_le_of_free
  free_lt_next := hs.free_lt_next
  free_vacant := fun k hk => by
    have hne : k ≠ key := by rintro rfl; exact hfree hk
    rw [get?_place, if_neg hne]
    exact hs.free_vacant k hk
  fresh_vacant := fun k hk => by
    have hge : s.next ≤ k := hk
    rw [get?_place, if_neg (by omega)]
    exact hs.fresh_vacant k hge
  count_eq_live := by
    rw [countP_place hvac, hs.count_eq_live]
    rfl
  live_le := fun n hn => by
    have hp : s.policy = .bounded n := hn
    rw [hp, Capacity.admits_bounded_iff] at hadm
    exact hadm

/-- Emptying the slot of a live key. -/
theorem vacate (hs : s.WellFormed) (h : s.get? key = some v) : (s.vacate key).WellFormed where
  offset_le_next := hs.offset_le_next
  free_nodup := hs.free_nodup
  offset_le_of_free := hs.offset_le_of_free
  free_lt_next := hs.free_lt_next
  free_vacant := fun k hk => by
    rw [get?_vacate]
    split
    · rfl
    · exact hs.free_vacant k hk
  fresh_vacant := fun k hk => by
    rw [get?_vacate]
    split
    · rfl
    · exact hs.fresh_vacant k hk
  count_eq_live := by
    have hcount := countP_vacate h
    rw [hs.count_eq_live] at hcount
    change _ = s.live - 1
    omega
  live_le := fun n hn => Nat.le_trans (Nat.sub_le _ _) (hs.live_le n hn)

/-- Any choice of free keys among the vacant ones. -/
theorem withFree (hs : s.WellFormed) {free : List Nat} (hnodup : free.Nodup)
    (hfree : ∀ k ∈ free, s.offset ≤ k ∧ k < s.next ∧ s.get? k = none) :
    ({ s with free := free } : Slab α).WellFormed where
  offset_le_next := hs.offset_le_next
  free_nodup := hnodup
  offset_le_of_free := fun k hk => (hfree k hk).1
  free_lt_next := fun k hk => (hfree k hk).2.1
  free_vacant := fun k hk => (hfree k hk).2.2
  fresh_vacant := hs.fresh_vacant
  count_eq_live := hs.count_eq_live
  live_le := hs.live_le

/-- The first unused key may move on. -/
theorem withNext (hs : s.WellFormed) {next : Nat} (hnext : s.next ≤ next) :
    ({ s with next := next } : Slab α).WellFormed where
  offset_le_next := Nat.le_trans hs.offset_le_next hnext
  free_nodup := hs.free_nodup
  offset_le_of_free := hs.offset_le_of_free
  free_lt_next := fun k hk => Nat.lt_of_lt_of_le (hs.free_lt_next k hk) hnext
  free_vacant := hs.free_vacant
  fresh_vacant := fun k hk => hs.fresh_vacant k (Nat.le_trans hnext hk)
  count_eq_live := hs.count_eq_live
  live_le := hs.live_le

theorem free_spec (hs : s.WellFormed) {k : Nat} (hk : k ∈ s.free) :
    s.offset ≤ k ∧ k < s.next ∧ s.get? k = none :=
  ⟨hs.offset_le_of_free k hk, hs.free_lt_next k hk, hs.free_vacant k hk⟩

/-- Striking keys off the free ones. -/
theorem filterFree (hs : s.WellFormed) (p : Nat → Bool) :
    ({ s with free := s.free.filter p } : Slab α).WellFormed :=
  hs.withFree (hs.free_nodup.filter p) fun _ hk => hs.free_spec (List.mem_of_mem_filter hk)

/-! ### The next key -/

/-- **The next key is never a live one.** -/
theorem get?_vacantKey (hs : s.WellFormed) : s.get? s.vacantKey = none := by
  unfold vacantKey
  cases hf : s.free with
  | nil => exact hs.fresh_vacant _ (Nat.le_refl _)
  | cons k rest => exact hs.free_vacant k (by rw [hf]; exact List.mem_cons_self)

/-- The next key is one that may be issued. -/
theorem offset_le_vacantKey (hs : s.WellFormed) : s.offset ≤ s.vacantKey := by
  unfold vacantKey
  cases hf : s.free with
  | nil => exact hs.offset_le_next
  | cons k rest => exact hs.offset_le_of_free k (by rw [hf]; exact List.mem_cons_self)

/-! ### Operations -/

theorem insert (hs : s.WellFormed) (h : s.insert v = .ok (key, t)) : t.WellFormed := by
  obtain ⟨hadm, ⟨rest, hf, rfl⟩ | ⟨hf, rfl, rfl⟩⟩ := insert_ok h
  · have hnodup : (key :: rest).Nodup := hf ▸ hs.free_nodup
    have hkey : key ∈ s.free := by rw [hf]; exact List.mem_cons_self
    obtain ⟨hnot, hrest⟩ := List.nodup_cons.mp hnodup
    refine (hs.withFree hrest fun k hk => hs.free_spec ?_).place (hs.free_vacant key hkey)
      hnot (hs.free_lt_next key hkey) hadm v
    rw [hf]
    exact List.mem_cons_of_mem _ hk
  -- no free key: the next fresh one is taken
  · refine (hs.withNext (Nat.le_succ _)).place (hs.fresh_vacant _ (Nat.le_refl _)) ?_
      (Nat.lt_succ_self _) hadm v
    intro hk
    exact absurd (hs.free_lt_next _ hk) (Nat.lt_irrefl _)

/-- Claiming a key leaves it neither free nor fresh. -/
theorem claim (hs : s.WellFormed) (key : Nat) :
    (s.claim key).WellFormed ∧ key ∉ (s.claim key).free ∧ key < (s.claim key).next := by
  unfold Slab.claim
  split
  · -- past the fresh keys: those skipped over become free
    next hge =>
    have hmem : ∀ k ∈ List.range' s.next (key - s.next) ++ s.free,
        s.offset ≤ k ∧ k < key ∧ s.get? k = none := by
      intro k hk
      rcases List.mem_append.mp hk with hk | hk
      · rw [List.mem_range'_1] at hk
        have hoff := hs.offset_le_next
        exact ⟨by omega, by omega, hs.fresh_vacant k hk.1⟩
      · have hspec := hs.free_spec hk
        exact ⟨hspec.1, by omega, hspec.2.2⟩
    have hnodup : (List.range' s.next (key - s.next) ++ s.free).Nodup := by
      refine List.nodup_append.mpr ⟨List.nodup_range' 1 Nat.one_pos, hs.free_nodup, ?_⟩
      intro a ha b hb hab
      rw [List.mem_range'_1] at ha
      have hlt := hs.free_lt_next b hb
      omega
    have hnext : s.next ≤ key + 1 := by omega
    refine ⟨(hs.withNext hnext).withFree hnodup fun k hk => ?_, ?_, Nat.lt_succ_self key⟩
    · have hspec := hmem k hk
      exact ⟨hspec.1, Nat.lt_succ_of_lt hspec.2.1, hspec.2.2⟩
    · intro hk
      exact absurd (hmem key hk).2.1 (Nat.lt_irrefl _)
  · next hlt =>
    split
    · refine ⟨hs.filterFree _, ?_, by change key < s.next; omega⟩
      intro hk
      simpa using List.of_mem_filter hk
    · next hoff =>
      refine ⟨hs, fun hk => hoff (hs.offset_le_of_free key hk), by omega⟩

theorem insertAt (hs : s.WellFormed) (h : s.insertAt key v = .ok t) : t.WellFormed := by
  obtain ⟨hvac, hadm, rfl⟩ := insertAt_ok h
  obtain ⟨hclaim, hfree, hnext⟩ := hs.claim key
  refine hclaim.place ?_ hfree hnext ?_ v
  · rw [get?_claim]; exact hvac
  · rw [policy_claim, live_claim]; exact hadm

theorem remove (hs : s.WellFormed) (key : Nat) : (s.remove key).2.WellFormed := by
  cases h : s.get? key with
  | none => rw [remove_none h]; exact hs
  | some v =>
    have hvac := hs.vacate h
    rw [remove_some h]
    dsimp only
    split
    · next hoff =>
      -- a live key is not free, so that it joins the free ones once
      have hnot : key ∉ s.free := by
        intro hk
        rw [hs.free_vacant key hk] at h
        cases h
      refine hvac.withFree (List.nodup_cons.mpr ⟨hnot, hs.free_nodup⟩) fun k hk => ?_
      rcases List.mem_cons.mp hk with rfl | hk
      · refine ⟨hoff, hs.lt_next h, ?_⟩
        rw [get?_vacate, if_pos rfl]
      · exact hvac.free_spec hk
    · exact hvac

theorem retire (hs : s.WellFormed) (key : Nat) : (s.retire key).WellFormed := by
  unfold Slab.retire
  split
  · next hc =>
    obtain ⟨v, hv⟩ := contains_iff.mp hc
    exact (hs.vacate hv).filterFree _
  · exact hs.filterFree _

theorem set (hs : s.WellFormed) (key : Nat) (v : α) : (s.set key v).WellFormed where
  offset_le_next := by
    rw [offset_set, next_set]; exact hs.offset_le_next
  free_nodup := by
    rw [free_set]; exact hs.free_nodup
  offset_le_of_free := by
    rw [free_set, offset_set]; exact hs.offset_le_of_free
  free_lt_next := by
    rw [free_set, next_set]; exact hs.free_lt_next
  free_vacant := by
    rw [free_set]; exact fun k hk => get?_set_of_vacant key v (hs.free_vacant k hk)
  fresh_vacant := by
    rw [next_set]; exact fun k hk => get?_set_of_vacant key v (hs.fresh_vacant k hk)
  count_eq_live := by
    rw [countP_set, live_set]; exact hs.count_eq_live
  live_le := by
    rw [policy_set, live_set]; exact hs.live_le

/-! ### The ceiling -/

theorem length_entries_eq (hs : s.WellFormed) : s.entries.length = s.live := by
  rw [length_entries, hs.count_eq_live]

/-- **A bounded table holds at most its limit.** -/
theorem length_entries_le (hs : s.WellFormed) {n : Nat} (hn : s.policy = .bounded n) :
    s.entries.length ≤ n := by
  rw [hs.length_entries_eq]
  exact hs.live_le n hn

end WellFormed

end Slab
end EventLoop

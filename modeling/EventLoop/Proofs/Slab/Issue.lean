import EventLoop.Proofs.Slab.WellFormed
import Mathlib.Data.List.Nodup
import Mathlib.Data.List.Perm.Subperm
import Mathlib.Data.Nat.Find
import Mathlib.Order.Monotone.Basic

/-!
# The order in which keys are issued

A slot table that issued keys and never got one back would first hand out its
free keys and then the fresh ones.  This order is all that can be seen of the
free keys by whoever only inserts and removes: inserting takes the first key of
the order away, and removing puts a key in front.

## Main definitions

* `Slab.issue s n` — the key at place `n` of the order.
* `Slab.Reaches held s n` — the key at place `n` is the first that is not `held`.
* `Slab.Thins K f g` — the order `g` is the order `f` without some of the keys `K`.

## Main results

* `issue_insert`, `issue_remove_insert`, `issue_retire_insert` — a key is taken,
  taken and given back, taken and withdrawn.
* `WellFormed.issue_injective` — no key occurs twice.
* `WellFormed.exists_reaches` — **one more place than another table has entries
  holds a key that is vacant there.**
* `Thins.reaches` — the first key that is not held is the same in both orders,
  if those of `K` are held.
-/

namespace EventLoop
namespace Slab

variable {α β : Type} {s t : Slab α} {key : Nat} {v : α}

/-- The key that is issued after `n` others, if none is freed or claimed meanwhile. -/
def issue (s : Slab α) (n : Nat) : Nat := (s.free[n]?).getD (s.next + (n - s.free.length))

theorem issue_of_lt {n : Nat} (h : n < s.free.length) : s.issue n = s.free[n] := by
  rw [issue, List.getElem?_eq_getElem h, Option.getD_some]

theorem issue_of_le {n : Nat} (h : s.free.length ≤ n) :
    s.issue n = s.next + (n - s.free.length) := by
  rw [issue, List.getElem?_eq_none h, Option.getD_none]

/-- The first key of the order is the next one. -/
theorem issue_zero (s : Slab α) : s.issue 0 = s.vacantKey := by
  unfold issue vacantKey
  cases s.free <;> rfl

theorem issue_congr (hfree : t.free = s.free) (hnext : t.next = s.next) (n : Nat) :
    t.issue n = s.issue n := by
  rw [issue, issue, hfree, hnext]

/-- A key put in front of the free ones comes first, and all others one place later. -/
theorem issue_cons (hfree : t.free = key :: s.free) (hnext : t.next = s.next) (n : Nat) :
    t.issue (n + 1) = s.issue n := by
  rw [issue, issue, hfree, hnext, List.getElem?_cons_succ, List.length_cons, Nat.add_sub_add_right]

/-! ### Taking a key -/

/-- Inserting takes the first key of the order away. -/
theorem issue_insert (h : s.insert v = .ok (key, t)) (n : Nat) :
    t.issue n = s.issue (n + 1) := by
  rcases (insert_ok h).2 with ⟨rest, hf, rfl⟩ | ⟨hf, -, rfl⟩
  · exact (issue_cons (s := Slab.place { s with free := rest } key v) hf rfl n).symm
  · -- no key is free: both tables issue fresh keys
    have hlen : s.free.length = 0 := by rw [hf]; rfl
    rw [issue_of_le (s := s) (by omega), issue_of_le (by show s.free.length ≤ n; omega)]
    show s.next + 1 + (n - s.free.length) = _
    omega

theorem live_insert (h : s.insert v = .ok (key, t)) : t.live = s.live + 1 := by
  rcases (insert_ok h).2 with ⟨rest, -, rfl⟩ | ⟨-, -, rfl⟩ <;> rfl

theorem issue_set (s : Slab α) (key : Nat) (v : α) (n : Nat) :
    (s.set key v).issue n = s.issue n :=
  issue_congr (free_set s key v) (next_set s key v) n

/-! ### Giving it back -/

/-- What removing a live key leaves besides the slots. -/
theorem free_remove (h : s.get? key = some v) (hoff : s.offset ≤ key) :
    (s.remove key).2.free = key :: s.free ∧ (s.remove key).2.next = s.next := by
  rw [remove_some h, if_pos hoff]
  exact ⟨rfl, rfl⟩

theorem live_remove (h : s.get? key = some v) : (s.remove key).2.live = s.live - 1 := by
  rw [remove_some h]
  dsimp only
  split <;> rfl

/-- A removed key comes first, and all others one place later. -/
theorem issue_remove (h : s.get? key = some v) (hoff : s.offset ≤ key) (n : Nat) :
    (s.remove key).2.issue (n + 1) = s.issue n :=
  issue_cons (free_remove h hoff).1 (free_remove h hoff).2 n

namespace WellFormed

/-- A key just issued is live, and may be issued. -/
theorem get?_key_insert (hs : s.WellFormed) (h : s.insert v = .ok (key, t)) :
    t.get? key = some v ∧ t.offset ≤ key := by
  refine ⟨by rw [get?_insert h, if_pos rfl], ?_⟩
  rw [offset_insert h, key_of_insert h]
  exact hs.offset_le_vacantKey

/-- A key that is issued and removed at once leaves the order as it was. -/
theorem issue_remove_insert (hs : s.WellFormed) (h : s.insert v = .ok (key, t)) (n : Nat) :
    (t.remove key).2.issue n = s.issue n := by
  obtain ⟨hlive, hoff⟩ := hs.get?_key_insert h
  cases n with
  | zero => rw [issue_zero, issue_zero, vacantKey_remove hlive hoff, key_of_insert h]
  | succ n => rw [issue_remove hlive hoff, issue_insert h]

/-- A key that is withdrawn besides is gone from the order. -/
theorem issue_retire_insert (hs : s.WellFormed) (h : s.insert v = .ok (key, t)) (n : Nat) :
    ((t.remove key).2.retire key).issue n = s.issue (n + 1) := by
  obtain ⟨hlive, hoff⟩ := hs.get?_key_insert h
  obtain ⟨hfree, hnext⟩ := free_remove hlive hoff
  -- the key was live, so it is not free a second time
  have hnot : key ∉ t.free := by
    intro hk
    rw [(hs.insert h).free_vacant key hk] at hlive
    cases hlive
  have hkept : t.free.filter (· != key) = t.free := by
    rw [List.filter_eq_self]
    intro k hk
    rw [bne_iff_ne]
    rintro rfl
    exact hnot hk
  rw [← issue_insert h]
  refine issue_congr ?_ ?_ n
  · unfold Slab.retire
    dsimp only
    split <;> simp [Slab.vacate, hfree, hkept]
  · unfold Slab.retire
    dsimp only
    split <;> exact hnext

/-! ### The keys of the order -/

/-- The order holds vacant keys only, none below the offset. -/
theorem issue_spec (hs : s.WellFormed) (n : Nat) :
    s.get? (s.issue n) = none ∧ s.offset ≤ s.issue n := by
  rcases Nat.lt_or_ge n s.free.length with h | h
  · rw [issue_of_lt h]
    have hmem := List.getElem_mem h
    exact ⟨hs.free_vacant _ hmem, hs.offset_le_of_free _ hmem⟩
  · rw [issue_of_le h]
    have hoff := hs.offset_le_next
    exact ⟨hs.fresh_vacant _ (by omega), by omega⟩

/-- **No key occurs twice in the order.** -/
theorem issue_injective (hs : s.WellFormed) : Function.Injective s.issue := by
  intro m n h
  rcases Nat.lt_or_ge m s.free.length with hm | hm
  · rcases Nat.lt_or_ge n s.free.length with hn | hn
    · rw [issue_of_lt hm, issue_of_lt hn] at h
      exact (hs.free_nodup.getElem_inj_iff).mp h
    · rw [issue_of_lt hm, issue_of_le hn] at h
      have hlt := hs.free_lt_next _ (List.getElem_mem hm)
      omega
  · rcases Nat.lt_or_ge n s.free.length with hn | hn
    · rw [issue_of_le hm, issue_of_lt hn] at h
      have hlt := hs.free_lt_next _ (List.getElem_mem hn)
      omega
    · rw [issue_of_le hm, issue_of_le hn] at h
      omega

end WellFormed

/-! ### The first key that is not held -/

/-- The key at place `n` of the order is the first that is not held. -/
structure Reaches (held : Nat → Bool) (f : Nat → Nat) (n : Nat) : Prop where
  passed : ∀ i < n, held (f i) = true
  stop : held (f n) = false

/-- **One more place than another table has entries holds a key that is vacant there.** -/
theorem WellFormed.exists_reaches (hs : s.WellFormed) {t : Slab β} (ht : t.WellFormed) :
    ∃ n ≤ t.live, Reaches t.contains s.issue n := by
  have hex : ∃ n, n ≤ t.live ∧ t.contains (s.issue n) = false := by
    by_contra hnone
    push Not at hnone
    -- otherwise the first places hold more live keys of `t` than there are
    have hnodup : ((List.range (t.live + 1)).map s.issue).Nodup :=
      List.nodup_range.map hs.issue_injective
    have hsub : (List.range (t.live + 1)).map s.issue ⊆ t.keys := by
      intro k hk
      obtain ⟨n, hn, rfl⟩ := List.mem_map.mp hk
      rw [List.mem_range] at hn
      have hc := hnone n (by omega)
      rw [ne_eq, Bool.not_eq_false, contains_iff] at hc
      obtain ⟨w, hw⟩ := hc
      exact List.mem_map.mpr ⟨(s.issue n, w), mem_entries_iff.mpr hw, rfl⟩
    have hle := (hnodup.subperm hsub).length_le
    rw [List.length_map, List.length_range, keys, List.length_map, ht.length_entries_eq] at hle
    omega
  classical
  refine ⟨Nat.find hex, (Nat.find_spec hex).1, fun i hi => ?_, (Nat.find_spec hex).2⟩
  have hmin := Nat.find_min hex hi
  have hle := (Nat.find_spec hex).1
  by_contra hc
  exact hmin ⟨by omega, Bool.not_eq_true _ ▸ hc⟩

/-! ### Orders without some keys -/

/-- The order `g` is the order `f` without some of the keys `K`. -/
def Thins (K : Nat → Prop) (f g : Nat → Nat) : Prop :=
  ∃ φ : Nat → Nat, StrictMono φ ∧ (∀ j, g j = f (φ j)) ∧ ∀ i, (∀ j, φ j ≠ i) → K (f i)

namespace Thins

variable {K : Nat → Prop} {f g : Nat → Nat}

/-- An order without its first keys. -/
theorem drop (n : Nat) (hK : ∀ i < n, K (f i)) : Thins K f fun j => f (n + j) := by
  refine ⟨fun j => n + j, fun i j h => Nat.add_lt_add_left h n, fun _ => rfl, fun i hi => ?_⟩
  refine hK i (Nat.lt_of_not_le fun hle => hi (i - n) ?_)
  exact Nat.add_sub_cancel' hle

/-- A key put in front of both. -/
theorem cons (h : Thins K f g) {f' g' : Nat → Nat} (hzero : g' 0 = f' 0)
    (hf : ∀ n, f' (n + 1) = f n) (hg : ∀ n, g' (n + 1) = g n) : Thins K f' g' := by
  obtain ⟨φ, hmono, heq, hrest⟩ := h
  refine ⟨fun j => j.casesOn 0 fun j => φ j + 1, ?_, fun j => ?_, fun i hi => ?_⟩
  · refine strictMono_nat_of_lt_succ fun j => ?_
    cases j with
    | zero => exact Nat.succ_pos _
    | succ j => exact Nat.succ_lt_succ (hmono (Nat.lt_succ_self j))
  · cases j with
    | zero => exact hzero
    | succ j => exact (hg j).trans ((heq j).trans (hf _).symm)
  · cases i with
    | zero => exact absurd rfl (hi 0)
    | succ i =>
      rw [hf]
      exact hrest i fun j hj => hi (j + 1) (congrArg Nat.succ hj)

/-- What is left of both after places that correspond to each other. -/
theorem shift {φ : Nat → Nat} (hmono : StrictMono φ) (heq : ∀ j, g j = f (φ j))
    (hrest : ∀ i, (∀ j, φ j ≠ i) → K (f i)) {a m : Nat} (ham : ∀ j, j < m ↔ φ j < a) :
    Thins K (fun j => f (a + j)) fun j => g (m + j) := by
  have hge : ∀ j, a ≤ φ (m + j) := fun j => by
    by_contra hlt
    have hbad := (ham (m + j)).mpr (by omega)
    omega
  refine ⟨fun j => φ (m + j) - a, fun i j hij => ?_, fun j => ?_, fun i hi => ?_⟩
  · have hlt := hmono (Nat.add_lt_add_left hij m)
    have hgi := hge i
    dsimp only
    omega
  · have hgj := hge j
    dsimp only
    rw [heq, Nat.add_sub_cancel' hgj]
  · refine hrest (a + i) fun j hj => ?_
    have hjm : m ≤ j := by
      by_contra hlt
      have hbad := (ham j).mp (by omega)
      omega
    refine hi (j - m) ?_
    dsimp only
    rw [Nat.add_sub_cancel' hjm, hj]
    omega

/-- **The first key that is not held is the same in both orders**, if those that are left out
are held, and so are the orders from there on, with that key or after it. -/
theorem reaches (h : Thins K f g) {held : Nat → Bool} (hK : ∀ k, K k → held k = true) {m : Nat}
    (hg : Reaches held g m) :
    ∃ a, Reaches held f a ∧ g m = f a ∧
      (Thins K (fun j => f (a + j)) fun j => g (m + j)) ∧
      Thins K (fun j => f (a + 1 + j)) fun j => g (m + 1 + j) := by
  obtain ⟨φ, hmono, heq, hrest⟩ := h
  refine ⟨φ m, ⟨fun i hi => ?_, ?_⟩, heq m, ?_, ?_⟩
  · by_cases hex : ∃ j, φ j = i
    · obtain ⟨j, rfl⟩ := hex
      rw [← heq]
      exact hg.passed j (hmono.lt_iff_lt.mp hi)
    · push Not at hex
      exact hK _ (hrest i hex)
  · rw [← heq]
    exact hg.stop
  · exact shift hmono heq hrest fun j => hmono.lt_iff_lt.symm
  · refine shift hmono heq hrest fun j => ?_
    rw [Nat.lt_succ_iff, Nat.lt_succ_iff, hmono.le_iff_le]

end Thins

end Slab
end EventLoop

import EventLoop.Proofs.Slab.Reuse

/-!
# Withdrawn keys

A key that is withdrawn is struck off the free ones, and that is all: there is no
record of it.  Below the first fresh key this is enough, since whatever frees a key
there must have found an entry under it.  A fresh key, however, is on no list that it
could be struck off, so withdrawing it has no effect, and its turn comes after the
keys before it.

## Main definitions

* `Slab.Withdrawn` — a key that is neither free nor fresh, and holds no entry.
* `Slab.distance` — how many keys are issued before a fresh one.

## Main results

* `Withdrawn.serve`, `Withdrawn.serveAll` — **a withdrawn key stays so unless it is claimed.**
* `WellFormed.exists_issued` — a fresh key is issued sooner or later.
* `insert_retire_iff` — **a key is never issued after it was withdrawn exactly when some
  key from there on had been issued or claimed before**, or it cannot be issued at all.
-/

namespace EventLoop

/-- Where the capacity admits nothing, nothing is stored. -/
theorem Entries.History.not_stored {α : Type} {offset : Nat} {policy : Capacity} {m m' : Entries α}
    {log : List (Slab.Request α × Slab.Answer α)} (h : m.History offset policy log m')
    (hfull : policy.admits 0 = false) {v : α} {key : Nat} :
    (.insert v, .stored key) ∉ log := by
  induction h with
  | nil => exact List.not_mem_nil
  | cons hfirst hrest ih =>
    intro hmem
    rcases List.mem_cons.mp hmem with heq | hmem
    · obtain ⟨rfl, rfl⟩ := Prod.mk.inj heq
      cases hfirst with
      | insert hkey hoffset hroom =>
        -- a policy that admits nothing at zero admits nothing
        rw [Capacity.admits_eq_false_of_zero hfull] at hroom
        cases hroom
    · exact ih hmem

namespace Slab

variable {α : Type} {s t : Slab α} {key k : Nat} {v : α}

/-! ### Withdrawn keys stay withdrawn -/

/-- A key that nothing but a claim brings back. -/
structure Withdrawn (key : Nat) (s : Slab α) : Prop where
  not_free : key ∉ s.free
  not_fresh : key < s.next
  absent : s.get? key = none

/-- Withdrawing a key that is not fresh. -/
theorem withdrawn_retire (h : key < s.next) : Withdrawn key (s.retire key) where
  not_free := by
    rw [free_retire, List.mem_filter]
    rintro ⟨-, hne⟩
    exact bne_iff_ne.mp hne rfl
  not_fresh := (next_retire s key).symm ▸ h
  absent := by rw [get?_retire, if_pos rfl]

theorem WellFormed.serve (hs : s.WellFormed) (request : Request α) :
    (s.serve request).2.WellFormed := by
  cases request with
  | insert v =>
    cases hins : s.insert v with
    | error why => rwa [serve_insert_error hins]
    | ok r => exact serve_insert_ok hins ▸ hs.insert hins
  | insertAt k v =>
    cases hins : s.insertAt k v with
    | error why => rwa [serve_insertAt_error hins]
    | ok t => exact serve_insertAt_ok hins ▸ hs.insertAt hins
  | remove k => exact hs.remove k
  | retire k => exact hs.retire k
  | write k v => exact hs.set k v

namespace Withdrawn

theorem ne_vacantKey (h : Withdrawn key s) : key ≠ s.vacantKey := by
  rintro rfl
  have hfree := h.not_free
  have hfresh := h.not_fresh
  unfold vacantKey at hfree hfresh
  -- the key due is a free one, or else the first fresh one
  cases hs : s.free with
  | nil =>
    rw [hs] at hfresh
    exact Nat.lt_irrefl _ hfresh
  | cons k rest =>
    rw [hs] at hfree
    exact hfree List.mem_cons_self

theorem insert (hs : s.WellFormed) (h : Withdrawn key s) (hins : s.insert v = .ok (k, t)) :
    Withdrawn key t where
  not_free := by
    rw [hs.free_insert hins]
    exact fun hk => h.not_free (List.mem_of_mem_filter hk)
  not_fresh := by
    rw [hs.next_insert hins]
    exact Nat.lt_of_lt_of_le h.not_fresh (Nat.le_max_left _ _)
  absent := by
    have hne : key ≠ k := key_of_insert hins ▸ h.ne_vacantKey
    rw [get?_insert hins, if_neg hne, h.absent]

/-- A claim of another key frees no key but fresh ones. -/
theorem insertAt (hs : s.WellFormed) (h : Withdrawn key s) (hne : key ≠ k)
    (hins : s.insertAt k v = .ok t) : Withdrawn key t where
  not_free := by
    rw [hs.free_insertAt hins, List.mem_append, List.mem_range'_1]
    rintro (hk | hk)
    · exact Nat.not_lt_of_le hk.1 h.not_fresh
    · exact h.not_free (List.mem_of_mem_filter hk)
  not_fresh := by
    rw [next_insertAt hins]
    exact Nat.lt_of_lt_of_le h.not_fresh (Nat.le_max_left _ _)
  absent := by rw [get?_insertAt hins, if_neg hne, h.absent]

/-- Only a key that holds an entry becomes free. -/
theorem remove (h : Withdrawn key s) (k : Nat) : Withdrawn key (s.remove k).2 where
  not_free := by
    cases hget : s.get? k with
    | none =>
      rw [remove_none hget]
      exact h.not_free
    | some v =>
      -- a withdrawn key is not live, so that another one is removed
      have hne : key ≠ k := by
        rintro rfl
        rw [h.absent] at hget
        cases hget
      by_cases hoff : s.offset ≤ k
      · rw [(free_remove hget hoff).1, List.mem_cons]
        rintro (hk | hk)
        · exact hne hk
        · exact h.not_free hk
      · rw [free_remove_below hget (Nat.lt_of_not_le hoff)]
        exact h.not_free
  not_fresh := (next_remove s k).symm ▸ h.not_fresh
  absent := by rw [get?_remove, h.absent, ite_self]

theorem retire (h : Withdrawn key s) (k : Nat) : Withdrawn key (s.retire k) where
  not_free := by
    rw [free_retire]
    exact fun hk => h.not_free (List.mem_of_mem_filter hk)
  not_fresh := (next_retire s k).symm ▸ h.not_fresh
  absent := by rw [get?_retire, h.absent, ite_self]

theorem set (h : Withdrawn key s) (k : Nat) (v : α) : Withdrawn key (s.set k v) where
  not_free := (free_set s k v).symm ▸ h.not_free
  not_fresh := (next_set s k v).symm ▸ h.not_fresh
  absent := get?_set_of_vacant k v h.absent

/-- **A withdrawn key stays so through any request that does not claim it.** -/
theorem serve (hs : s.WellFormed) (h : Withdrawn key s) (request : Request α)
    (hclaim : ∀ v, (request, (s.serve request).1) ≠ (.insertAt key v, .stored key)) :
    Withdrawn key (s.serve request).2 := by
  cases request with
  | insert v =>
    cases hins : s.insert v with
    | error why =>
      rw [serve_insert_error hins]
      exact h
    | ok r =>
      rw [serve_insert_ok hins]
      exact h.insert hs hins
  | insertAt k v =>
    cases hins : s.insertAt k v with
    | error why =>
      rw [serve_insertAt_error hins]
      exact h
    | ok t =>
      have hne : key ≠ k := by
        rintro rfl
        exact hclaim v (by rw [serve_insertAt_ok hins])
      rw [serve_insertAt_ok hins]
      exact h.insertAt hs hne hins
  | remove k => exact h.remove k
  | retire k => exact h.retire k
  | write k v => exact h.set k v

/-- No entry is added under a withdrawn key. -/
theorem insert_ne (h : Withdrawn key s) (v : α) : (s.serve (.insert v)).1 ≠ .stored key := by
  cases hins : s.insert v with
  | error why =>
    rw [serve_insert_error hins]
    exact fun h => nomatch h
  | ok r =>
    rw [serve_insert_ok hins]
    intro hstored
    exact h.ne_vacantKey (key_of_insert hins ▸ (Answer.stored.inj hstored).symm)

/-- **No run issues a withdrawn key, unless it claims the key.** -/
theorem serveAll (requests : List (Request α)) : ∀ {s : Slab α}, s.WellFormed → Withdrawn key s →
    (∀ v, (.insertAt key v, .stored key) ∉ (s.serveAll requests).1) →
      ∀ v, (.insert v, .stored key) ∉ (s.serveAll requests).1 := by
  induction requests with
  | nil => exact fun _ _ _ _ => List.not_mem_nil
  | cons request rest ih =>
    intro s hs h hclaim v hmem
    rcases List.mem_cons.mp hmem with hfirst | hrest
    · obtain ⟨rfl, hstored⟩ := Prod.mk.inj hfirst
      exact h.insert_ne v hstored.symm
    · refine ih (hs.serve request) (h.serve hs request fun v hv => hclaim v ?_) (fun v hv => ?_) v
        hrest
      · exact List.mem_cons.mpr (Or.inl hv.symm)
      · exact hclaim v (List.mem_cons_of_mem _ hv)

end Withdrawn

/-! ### Fresh keys are issued -/

theorem exists_insert (v : α) (h : s.policy.admits s.live = true) : ∃ r, s.insert v = .ok r := by
  cases hins : s.insert v with
  | ok r => exact ⟨r, rfl⟩
  | error why => exact absurd h (Bool.eq_false_iff.mp (insert_error hins).2)

theorem serveAll_requests (requests : List (Request α)) : ∀ s : Slab α,
    (s.serveAll requests).1.map (·.1) = requests := by
  induction requests with
  | nil => exact fun _ => rfl
  | cons request rest ih => exact fun s => congrArg (request :: ·) (ih _)

/-- How many keys are issued before a fresh one. -/
def distance (key : Nat) (s : Slab α) : Nat := s.free.length + (key - s.next)

/-- Issuing another key brings a fresh one nearer. -/
theorem distance_insert (h : s.insert v = .ok (k, t)) (hne : k ≠ key) (hfresh : s.next ≤ key) :
    t.next ≤ key ∧ t.distance key + 1 = s.distance key := by
  unfold distance
  rcases (insert_ok h).2 with ⟨rest, hf, rfl⟩ | ⟨hf, rfl, rfl⟩
  · rw [free_place, next_place, hf, List.length_cons]
    exact ⟨hfresh, Nat.add_right_comm _ _ _⟩
  · have hlt : s.next < key := Nat.lt_of_le_of_ne hfresh hne
    rw [free_place, next_place, hf]
    dsimp only
    exact ⟨hlt, by omega⟩

namespace WellFormed

/-- Withdrawing a key that holds an entry frees none, and takes the entry out. -/
theorem retire_live (hs : s.WellFormed) (key : Nat) (h : s.get? k = some v) :
    (s.retire k).live + 1 = s.live ∧ (s.retire k).distance key = s.distance key := by
  have hpos : 0 < s.live := hs.count_eq_live ▸ countP_pos_of_get? h
  have hlive : (s.retire k).live = s.live - 1 := by
    rw [Slab.retire, if_pos (contains_iff.mpr ⟨v, h⟩)]
    rfl
  refine ⟨by omega, ?_⟩
  rw [distance, free_retire, next_retire, filter_ne_of_notMem (hs.notMem_free h)]
  rfl

theorem exists_live (hs : s.WellFormed) (h : 0 < s.live) : ∃ k v, s.get? k = some v := by
  rw [← hs.length_entries_eq] at h
  exact ⟨_, _, mem_entries_iff.mp (List.getElem_mem h)⟩

/-- **A fresh key is issued sooner or later**: whatever is live is withdrawn, and so is every key
that is issued before. -/
theorem exists_issued (key : Nat) (v : α) (n : Nat) : ∀ {s : Slab α}, s.WellFormed →
    s.policy.admits 0 = true → s.next ≤ key → 2 * s.distance key + s.live = n →
      ∃ requests, (∀ k w, .insertAt k w ∉ requests) ∧
        (.insert v, .stored key) ∈ (s.serveAll requests).1 := by
  -- on twice the distance to the key plus the live ones: an insertion comes nearer to the key,
  -- a retirement makes room
  induction n using Nat.strong_induction_on with
  | h n ih =>
    intro s hs hadm hfresh hn
    rcases Nat.eq_zero_or_pos s.live with hlive | hlive
    · -- nothing is live: a key is issued, and it may be the one
      obtain ⟨⟨k, t⟩, hins⟩ : ∃ r, s.insert v = .ok r := exists_insert v (hlive.symm ▸ hadm)
      by_cases hk : k = key
      · refine ⟨[.insert v], fun k w => by simp, ?_⟩
        rw [Slab.serveAll, serve_insert_ok hins, hk]
        exact List.mem_cons_self
      · obtain ⟨hnext, hdistance⟩ := distance_insert hins hk hfresh
        obtain ⟨rest, hclaims, hmem⟩ := ih (2 * t.distance key + t.live)
          (by rw [live_insert hins]; omega) (hs.insert hins) (policy_insert hins ▸ hadm) hnext rfl
        refine ⟨.insert v :: rest, fun k w => by simpa using hclaims k w, ?_⟩
        rw [Slab.serveAll, serve_insert_ok hins]
        exact List.mem_cons_of_mem _ hmem
    · -- something is live, and is withdrawn
      obtain ⟨k, w, hget⟩ := hs.exists_live hlive
      obtain ⟨hcount, hdistance⟩ := hs.retire_live key hget
      obtain ⟨rest, hclaims, hmem⟩ := ih (2 * (s.retire k).distance key + (s.retire k).live)
        (by omega) (hs.retire k) ((policy_retire s k).symm ▸ hadm)
        ((next_retire s k).symm ▸ hfresh) rfl
      exact ⟨.retire k :: rest, fun k w => by simpa using hclaims k w, List.mem_cons_of_mem _ hmem⟩

end WellFormed

/-! ### Withdrawing any key -/

/-- Withdrawing a fresh key has no effect. -/
theorem WellFormed.retire_of_fresh (hs : s.WellFormed) (h : s.next ≤ key) : s.retire key = s := by
  have hnot : key ∉ s.free := fun hk => Nat.not_lt_of_le h (hs.free_lt_next key hk)
  have hvacant : ¬ s.contains key = true :=
    Bool.eq_false_iff.mp (contains_eq_false_iff.mpr (hs.fresh_vacant key h))
  rw [Slab.retire, if_neg hvacant, filter_ne_of_notMem hnot]

/-- **A key is never issued after it was withdrawn**, whatever is asked later without claiming it,
if it lies below the offset, if some key from there on had been issued or claimed before, or if
the table never admits an entry.  In every other case there are requests after which it is. -/
theorem insert_retire_iff [Inhabited α] (offset : Nat) (policy : Capacity)
    (before : List (Request α)) (key : Nat) :
    let past := ((empty offset policy).serveAll before).1
    let s := ((empty offset policy).serveAll before).2
    (∀ after, (∀ v, (.insertAt key v, .stored key) ∉ ((s.retire key).serveAll after).1) →
        ∀ v, (.insert v, .stored key) ∉ ((s.retire key).serveAll after).1) ↔
      key < offset ∨ (∃ k ∈ used past, key ≤ k) ∨ policy.admits 0 = false := by
  intro past s
  have htold : Told offset past.reverse s := .of_serveAll offset policy before
  have hused : (∃ k ∈ used past, key ≤ k) ↔ ∃ k ∈ used past.reverse, key ≤ k := by
    simp only [used, List.filterMap_reverse, List.mem_reverse]
  obtain ⟨m, -, hholds⟩ := serveAll_holds before (holds_empty (α := α) offset policy)
  rw [← or_assoc, hused, ← lt_mark_iff, ← htold.next_eq]
  constructor
  · intro hnever
    -- a key below the next one is withdrawn, the others were never issued and come up later
    rcases Nat.lt_or_ge key s.next with hlt | hge
    · exact Or.inl hlt
    · rw [htold.wellFormed.retire_of_fresh hge] at hnever
      refine Or.inr (Bool.eq_false_iff.mpr fun hadm => ?_)
      obtain ⟨after, hclaims, hmem⟩ := htold.wellFormed.exists_issued key default _
        (hholds.policy_eq.symm ▸ hadm) hge rfl
      refine hnever after (fun v hv => hclaims key v ?_) default hmem
      rw [← serveAll_requests after s]
      exact List.mem_map_of_mem hv
  · rintro (hlt | hfull) after hclaim
    · exact (withdrawn_retire hlt).serveAll after (htold.wellFormed.retire key) hclaim
    · obtain ⟨m', -, hretired⟩ := serve_allows hholds (.retire key)
      obtain ⟨m'', hhistory, -⟩ := serveAll_holds after hretired
      exact fun v => hhistory.not_stored hfull

/-- The very first key, withdrawn before it was ever issued, is issued all the same. -/
theorem not_withdrawn_of_fresh :
    ¬ ∀ (offset : Nat) (policy : Capacity) (before after : List (Request Char)) (key : Nat),
      offset ≤ key →
      let s := ((empty offset policy).serveAll before).2.retire key
      (∀ v, (.insertAt key v, .stored key) ∉ (s.serveAll after).1) →
        ∀ v, (.insert v, .stored key) ∉ (s.serveAll after).1 := by
  intro h
  -- the key retired is the first to be issued
  have hlog : (((empty 0 .unbounded : Slab Char).retire 0).serveAll [.insert 'a']).1
      = [(.insert 'a', .stored 0)] := rfl
  refine h 0 .unbounded [] [.insert 'a'] 0 (Nat.le_refl 0) (fun v hv => ?_) 'a' ?_
  · cases List.mem_singleton.mp (hlog ▸ hv)
  · exact hlog ▸ List.mem_singleton_self _

end Slab
end EventLoop

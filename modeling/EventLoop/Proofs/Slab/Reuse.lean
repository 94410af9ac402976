import EventLoop.Proofs.Slab.FiniteMap
import EventLoop.Proofs.Slab.Issue

/-!
# Which key is issued next

A slot table keeps its free keys in a stack, with no record of how they came to be
free.  The same can be told from outside: what was asked of the table and what it
answered say which keys became free, in which order, and which of them were
withdrawn or taken since.

## Main definitions

* `Slab.mark` — the first key past all that were issued or claimed.
* `Slab.Happening`, `Slab.timeline` — what happened to keys, latest first.
* `Slab.Waits` — a key that became free, is vacant still, and was not withdrawn since.
* `Slab.Due` — the key that became free last among those that wait, or the mark if none does.

## Main results

* `free_insert`, `free_insertAt`, `free_remove`, `free_retire` — the free keys after each
  operation, and `next_insert`, `next_insertAt`, … — the first key never used.
* `Told.serve` — **the free keys are those that wait, the one freed last comes first.**
* `serveAll_due` — **after any requests, the next key is the one that is due.**
-/

namespace EventLoop
namespace Slab

variable {α : Type} {s t : Slab α} {key k : Nat} {v : α}

/-! ### Free keys and fresh keys after each operation -/

/-- Striking out a key that is not there changes nothing. -/
theorem filter_ne_of_notMem {ks : List Nat} (h : key ∉ ks) : ks.filter (· != key) = ks := by
  rw [List.filter_eq_self]
  intro j hj
  rw [bne_iff_ne]
  rintro rfl
  exact h hj

namespace WellFormed

/-- A key that holds an entry is not free. -/
theorem notMem_free (hs : s.WellFormed) (h : s.get? key = some v) : key ∉ s.free := by
  intro hk
  rw [hs.free_vacant key hk] at h
  cases h

theorem free_insert (hs : s.WellFormed) (h : s.insert v = .ok (key, t)) :
    t.free = s.free.filter (· != key) := by
  rcases (insert_ok h).2 with ⟨rest, hf, rfl⟩ | ⟨hf, -, rfl⟩
  · have hnot : key ∉ rest := (List.nodup_cons.mp (hf ▸ hs.free_nodup)).1
    rw [free_place, hf, List.filter_cons, if_neg (by simp), filter_ne_of_notMem hnot]
  · rw [free_place, hf]
    rfl

theorem next_insert (hs : s.WellFormed) (h : s.insert v = .ok (key, t)) :
    t.next = max s.next (key + 1) := by
  rcases (insert_ok h).2 with ⟨rest, hf, rfl⟩ | ⟨-, rfl, rfl⟩
  · have hlt : key < s.next := hs.free_lt_next key (by rw [hf]; exact List.mem_cons_self)
    rw [next_place]
    exact (Nat.max_eq_left hlt).symm
  · rw [next_place]
    exact (Nat.max_eq_right (Nat.le_succ _)).symm

/-- A claim past the mark puts the keys it skips in front, the lowest first. -/
theorem free_claim (hs : s.WellFormed) (key : Nat) :
    (s.claim key).free = List.range' s.next (key - s.next) ++ s.free.filter (· != key) := by
  unfold Slab.claim
  split
  · next hge =>
    -- beyond the mark nothing is free yet, and the keys up to the claimed one become so
    have hnot : key ∉ s.free := fun hk => absurd (hs.free_lt_next key hk) (by omega)
    rw [filter_ne_of_notMem hnot]
  · next hlt =>
    rw [Nat.sub_eq_zero_of_le (by omega)]
    split
    · rfl
    · next hoff =>
      have hnot : key ∉ s.free := fun hk => hoff (hs.offset_le_of_free key hk)
      rw [filter_ne_of_notMem hnot]
      rfl

theorem free_insertAt (hs : s.WellFormed) (h : s.insertAt key v = .ok t) :
    t.free = List.range' s.next (key - s.next) ++ s.free.filter (· != key) := by
  obtain ⟨-, -, rfl⟩ := insertAt_ok h
  exact hs.free_claim key

end WellFormed

theorem next_claim (s : Slab α) (key : Nat) : (s.claim key).next = max s.next (key + 1) := by
  unfold Slab.claim
  split
  · next hge => exact (Nat.max_eq_right (Nat.le_succ_of_le hge)).symm
  · next hlt =>
    have hmax : max s.next (key + 1) = s.next := Nat.max_eq_left (by omega)
    rw [hmax]
    split <;> rfl

theorem next_insertAt (h : s.insertAt key v = .ok t) : t.next = max s.next (key + 1) := by
  obtain ⟨-, -, rfl⟩ := insertAt_ok h
  exact s.next_claim key

theorem next_remove (s : Slab α) (key : Nat) : (s.remove key).2.next = s.next := by
  cases h : s.get? key with
  | none => rw [remove_none h]
  | some v =>
    rw [remove_some h]
    dsimp only
    split <;> rfl

theorem free_remove_below (h : s.get? key = some v) (hoff : key < s.offset) :
    (s.remove key).2.free = s.free := by
  rw [remove_some h, if_neg (Nat.not_le_of_lt hoff)]
  rfl

theorem free_retire (s : Slab α) (key : Nat) :
    (s.retire key).free = s.free.filter (· != key) := by
  unfold Slab.retire
  split <;> rfl

theorem next_retire (s : Slab α) (key : Nat) : (s.retire key).next = s.next := by
  unfold Slab.retire
  split <;> rfl

/-! ### What happened to keys -/

/-- The key under which an entry was stored. -/
def Answer.key? : Answer α → Option Nat
  | .stored key => some key
  | _ => none

/-- The keys that were issued or claimed. -/
def used (past : List (Request α × Answer α)) : List Nat := past.filterMap fun entry => entry.2.key?

/-- The first key past all that were issued or claimed; the offset, if none from there on was. -/
def mark (offset : Nat) (past : List (Request α × Answer α)) : Nat :=
  ((used past).filter (offset ≤ ·)).max?.elim offset (· + 1)

/-- What can happen to a key that is not stored under. -/
inductive Happening
  /-- It becomes free. -/
  | freed (key : Nat)
  /-- It is withdrawn. -/
  | withdrawn (key : Nat)
  deriving DecidableEq, Repr

/-- What a request did to keys, one after the other. A claim past the mark frees the keys that it
skips, from the highest down to the lowest. Keys below the offset are never free. -/
def happenings (offset mark : Nat) : Request α × Answer α → List Happening
  | (.insertAt key _, .stored _) => (List.range' mark (key - mark)).reverse.map .freed
  | (.remove key, .taken (some _)) => if offset ≤ key then [.freed key] else []
  | (.retire key, _) => [.withdrawn key]
  | _ => []

/-- What happened to keys, latest first, as the requests and answers tell it, latest first too. -/
def timeline (offset : Nat) : List (Request α × Answer α) → List Happening
  | [] => []
  | entry :: past => (happenings offset (mark offset past) entry).reverse ++ timeline offset past

/-- A key became free, is vacant still, and was not withdrawn `later`, that is, since. -/
structure Waits (vacant : Nat → Bool) (happened later : List Happening) (key : Nat) : Prop where
  freed : ∃ earlier, happened = later ++ .freed key :: earlier
  vacant : vacant key = true
  kept : .withdrawn key ∉ later

/-- Of the keys that wait, this one became free last. -/
def Latest (vacant : Nat → Bool) (happened : List Happening) (key : Nat) : Prop :=
  ∃ later, Waits vacant happened later key ∧
    ∀ later' key', Waits vacant happened later' key' → later.length ≤ later'.length

/-- Does a key hold no entry? -/
def vacant (s : Slab α) (key : Nat) : Bool := !s.contains key

/-- The key that is to be issued next: the one that became free last among those that wait, or
the mark if none does. -/
def Due (offset : Nat) (past : List (Request α × Answer α)) (s : Slab α) (key : Nat) : Prop :=
  Latest s.vacant (timeline offset past) key ∨
    ((∀ later key', ¬ Waits s.vacant (timeline offset past) later key') ∧ key = mark offset past)

/-! ### The keys that wait -/

/-- The keys that became free and were not withdrawn since, each once, the last one first. -/
def standing : List Happening → List Nat
  | [] => []
  | .freed key :: rest => key :: (standing rest).filter (· != key)
  | .withdrawn key :: rest => (standing rest).filter (· != key)

section Waits

variable {p : Nat → Bool} {happened later : List Happening}

theorem not_waits_nil : ¬ Waits p [] later key := by
  rintro ⟨⟨earlier, h⟩, -, -⟩
  exact List.append_ne_nil_of_right_ne_nil later (List.cons_ne_nil _ _) h.symm

theorem waits_freed_iff : Waits p (.freed k :: happened) later key ↔
    (later = [] ∧ key = k ∧ p k = true) ∨
      ∃ later', later = .freed k :: later' ∧ Waits p happened later' key := by
  constructor
  · rintro ⟨⟨earlier, h⟩, hp, hkept⟩
    -- either this is the moment itself, or it came before
    rcases List.cons_eq_append_iff.mp h with ⟨rfl, hcons⟩ | ⟨later', rfl, hrest⟩
    · obtain ⟨hk, -⟩ := List.cons.inj hcons
      obtain rfl := Happening.freed.inj hk
      exact Or.inl ⟨rfl, rfl, hp⟩
    · exact Or.inr ⟨later', rfl, ⟨earlier, hrest⟩, hp, fun hmem =>
        hkept (List.mem_cons_of_mem _ hmem)⟩
  · rintro (⟨rfl, rfl, hp⟩ | ⟨later', rfl, ⟨earlier, rfl⟩, hp, hkept⟩)
    · exact ⟨⟨happened, rfl⟩, hp, List.not_mem_nil⟩
    · refine ⟨⟨earlier, rfl⟩, hp, fun hmem => ?_⟩
      rcases List.mem_cons.mp hmem with h | h
      · cases h
      · exact hkept h

/-- Whatever was withdrawn just now does not wait, as if it were not vacant. -/
theorem waits_withdrawn_iff : Waits p (.withdrawn k :: happened) later key ↔
    ∃ later', later = .withdrawn k :: later' ∧
      Waits (fun j => p j && j != k) happened later' key := by
  constructor
  · rintro ⟨⟨earlier, h⟩, hp, hkept⟩
    rcases List.cons_eq_append_iff.mp h with ⟨-, hcons⟩ | ⟨later', rfl, hrest⟩
    · cases (List.cons.inj hcons).1
    · refine ⟨later', rfl, ⟨earlier, hrest⟩, ?_, fun hmem => hkept (List.mem_cons_of_mem _ hmem)⟩
      -- a key that was withdrawn since does not wait
      have hne : key ≠ k := by
        rintro rfl
        exact hkept List.mem_cons_self
      rw [hp, Bool.true_and, bne_iff_ne]
      exact hne
  · rintro ⟨later', rfl, ⟨earlier, rfl⟩, hp, hkept⟩
    obtain ⟨hp, hne⟩ := Bool.and_eq_true_iff.mp hp
    refine ⟨⟨earlier, rfl⟩, hp, fun hmem => ?_⟩
    rcases List.mem_cons.mp hmem with h | h
    · rw [bne_iff_ne] at hne
      exact hne (Happening.withdrawn.inj h)
    · exact hkept h

theorem filter_filter_ne (ks : List Nat) :
    (ks.filter (· != k)).filter p = ks.filter fun j => p j && j != k := List.filter_filter

theorem filter_ne_filter (ks : List Nat) :
    (ks.filter p).filter (· != k) = ks.filter fun j => p j && j != k := by
  rw [List.filter_filter]
  exact List.filter_congr fun j _ => Bool.and_comm _ _

theorem and_ne_eq (hk : ¬ p k = true) : (fun j => p j && j != k) = p := by
  funext j
  by_cases hj : j = k
  · have hfalse : p j = false := by
      rw [hj]
      exact Bool.eq_false_iff.mpr hk
    rw [hfalse, Bool.false_and]
  · rw [bne_iff_ne.mpr hj, Bool.and_true]

/-- If none of the keys that stand is vacant, none waits. -/
theorem not_waits_of_filter (h : (standing happened).filter p = []) :
    ¬ Waits p happened later key := by
  -- on what has happened, latest first; a key that comes up is left out of what came before
  induction happened generalizing p later with
  | nil => exact not_waits_nil
  | cons x happened ih =>
    cases x with
    | freed k =>
      rw [standing, List.filter_cons] at h
      split at h
      · cases h
      next hk =>
        rw [filter_filter_ne, and_ne_eq hk] at h
        rw [waits_freed_iff]
        rintro (⟨-, -, hp⟩ | ⟨later', -, hw⟩)
        · exact hk hp
        · exact ih h hw
    | withdrawn k =>
      rw [standing, filter_filter_ne] at h
      rw [waits_withdrawn_iff]
      rintro ⟨later', -, hw⟩
      exact ih h hw

/-- Of the keys that stand, the first vacant one is the one that became free last among those that
wait. -/
theorem latest_of_filter {rest : List Nat} (h : (standing happened).filter p = key :: rest) :
    Latest p happened key := by
  induction happened generalizing p with
  | nil => cases h
  | cons x happened ih =>
    cases x with
    | freed k =>
      rw [standing, List.filter_cons] at h
      split at h
      next hk =>
        -- it was freed just now, and nothing can be later than that
        obtain ⟨rfl, -⟩ := List.cons.inj h
        exact ⟨[], waits_freed_iff.mpr (Or.inl ⟨rfl, rfl, hk⟩), fun _ _ _ => Nat.zero_le _⟩
      next hk =>
        rw [filter_filter_ne, and_ne_eq hk] at h
        obtain ⟨later, hw, hmin⟩ := ih h
        refine ⟨.freed k :: later, waits_freed_iff.mpr (Or.inr ⟨later, rfl, hw⟩), ?_⟩
        intro later' key' hw'
        -- the last thing that happened concerns another key, for everybody who is compared
        rcases waits_freed_iff.mp hw' with ⟨-, -, hp⟩ | ⟨before, rfl, hbefore⟩
        · exact absurd hp hk
        · exact Nat.succ_le_succ (hmin before key' hbefore)
    | withdrawn k =>
      rw [standing, filter_filter_ne] at h
      obtain ⟨later, hw, hmin⟩ := ih h
      refine ⟨.withdrawn k :: later, waits_withdrawn_iff.mpr ⟨later, rfl, hw⟩, ?_⟩
      intro later' key' hw'
      obtain ⟨before, rfl, hbefore⟩ := waits_withdrawn_iff.mp hw'
      exact Nat.succ_le_succ (hmin before key' hbefore)

/-- Only one key can be the last. -/
theorem Latest.unique {key' : Nat} (h : Latest p happened key) (h' : Latest p happened key') :
    key = key' := by
  obtain ⟨later, hw, hmin⟩ := h
  obtain ⟨later', hw', hmin'⟩ := h'
  -- as little has happened since the one as since the other, so it is the same moment
  have hlength := Nat.le_antisymm (hmin later' key' hw') (hmin' later key hw)
  obtain ⟨earlier, hfreed⟩ := hw.freed
  obtain ⟨earlier', hfreed'⟩ := hw'.freed
  obtain ⟨-, hcons⟩ := List.append_inj (hfreed.symm.trans hfreed') hlength
  exact Happening.freed.inj (List.cons.inj hcons).1

theorem freed_of_mem_standing (h : key ∈ standing happened) : .freed key ∈ happened := by
  induction happened with
  | nil => cases h
  | cons x happened ih =>
    cases x with
    | freed k =>
      rcases List.mem_cons.mp h with rfl | h
      · exact List.mem_cons_self
      · exact List.mem_cons_of_mem _ (ih (List.mem_of_mem_filter h))
    | withdrawn k => exact List.mem_cons_of_mem _ (ih (List.mem_of_mem_filter h))

/-- Keys that become free one after the other stand before all others. -/
theorem standing_freed_append {ks : List Nat} (hks : ks.Nodup) :
    standing (ks.map .freed ++ happened) = ks ++ (standing happened).filter (!ks.contains ·) := by
  induction ks with
  | nil => exact (List.filter_eq_self.mpr fun _ _ => rfl).symm
  | cons k ks ih =>
    obtain ⟨hk, hks⟩ := List.nodup_cons.mp hks
    rw [List.map_cons, List.cons_append, standing, ih hks, List.filter_append,
      filter_ne_of_notMem hk, List.filter_filter, List.cons_append]
    congr 3
    -- both conditions leave the same keys out
    funext j
    rw [List.contains_cons, Bool.not_or, bne]

end Waits

/-! ### The mark -/

section Mark

variable {offset : Nat} {past : List (Request α × Answer α)} {entry : Request α × Answer α}

theorem used_cons_of_none (h : entry.2.key? = none) : used (entry :: past) = used past :=
  List.filterMap_cons_none h

theorem used_cons_of_some (h : entry.2.key? = some key) : used (entry :: past) = key :: used past :=
  List.filterMap_cons_some h

theorem offset_le_mark (offset : Nat) (past : List (Request α × Answer α)) :
    offset ≤ mark offset past := by
  unfold mark
  cases hmax : ((used past).filter (offset ≤ ·)).max? with
  | none => exact Nat.le_refl _
  | some m =>
    have hm := List.of_mem_filter (List.max?_mem hmax)
    rw [decide_eq_true_eq] at hm
    exact Nat.le_succ_of_le hm

theorem mark_cons_of_none (h : entry.2.key? = none) :
    mark offset (entry :: past) = mark offset past := by
  unfold mark
  rw [used_cons_of_none h]

/-- A key that is stored under moves the mark past it. -/
theorem mark_cons_of_some (h : entry.2.key? = some key) :
    mark offset (entry :: past) = max (mark offset past) (key + 1) := by
  have hle := offset_le_mark offset past
  unfold mark at hle ⊢
  rw [used_cons_of_some h, List.filter_cons]
  split
  next hkey =>
    rw [decide_eq_true_eq] at hkey
    -- the key counts only from the offset on
    rw [List.max?_cons, Option.elim_some]
    cases ((used past).filter (offset ≤ ·)).max? with
    | none =>
      rw [Option.elim_none, Option.elim_none]
      omega
    | some m =>
      rw [Option.elim_some, Option.elim_some]
      omega
  next hkey =>
    rw [decide_eq_true_eq] at hkey
    exact (Nat.max_eq_left (by omega)).symm

theorem lt_mark_iff : key < mark offset past ↔ key < offset ∨ ∃ k ∈ used past, key ≤ k := by
  induction past with
  | nil => exact ⟨Or.inl, fun h => h.resolve_right fun ⟨_, hk, _⟩ => nomatch hk⟩
  | cons entry past ih =>
    cases hkey : entry.2.key? with
    | none => rw [mark_cons_of_none hkey, used_cons_of_none hkey, ih]
    | some k =>
      -- a key was used now or before
      rw [mark_cons_of_some hkey, used_cons_of_some hkey, lt_max_iff, ih, Nat.lt_succ_iff,
        List.exists_mem_cons_iff (key ≤ ·), or_assoc, or_comm (a := ∃ j ∈ used past, key ≤ j)]

end Mark

/-! ### What the requests and answers tell -/

section Vacant

theorem vacant_eq_true_iff : s.vacant key = true ↔ s.get? key = none := by
  rw [vacant, Bool.not_eq_true', contains_eq_false_iff]

/-- Storing under a key takes it from the vacant ones. -/
theorem vacant_of_stored (h : ∀ j, t.get? j = if j = key then some v else s.get? j) (j : Nat) :
    t.vacant j = (s.vacant j && j != key) := by
  rw [vacant, contains, h, vacant, contains]
  by_cases hj : j = key
  · rw [if_pos hj, bne, beq_iff_eq.mpr hj, Bool.not_true, Bool.and_false]
    rfl
  · rw [if_neg hj, bne_iff_ne.mpr hj, Bool.and_true]

/-- Emptying a key adds it to the vacant ones. -/
theorem vacant_of_emptied (h : ∀ j, t.get? j = if j = key then none else s.get? j) (j : Nat) :
    t.vacant j = (s.vacant j || j == key) := by
  rw [vacant, contains, h, vacant, contains]
  by_cases hj : j = key
  · rw [if_pos hj, beq_iff_eq.mpr hj, Bool.or_true]
    rfl
  · rw [if_neg hj, beq_eq_false_iff_ne.mpr hj, Bool.or_false]

theorem vacant_set (s : Slab α) (key : Nat) (v : α) : (s.set key v).vacant = s.vacant := by
  funext j
  rw [Bool.eq_iff_iff, vacant_eq_true_iff, vacant_eq_true_iff, get?_set]
  split
  · next h =>
    obtain ⟨rfl, hc⟩ := h
    obtain ⟨w, hw⟩ := contains_iff.mp hc
    rw [hw]
    exact iff_of_false (fun h => nomatch h) (fun h => nomatch h)
  · rfl

/-- A key that is not among some keys may be emptied: the same of them are vacant. -/
theorem filter_vacant_of_emptied (h : ∀ j, t.get? j = if j = key then none else s.get? j)
    {ks : List Nat} (hks : key ∉ ks) : ks.filter t.vacant = ks.filter s.vacant := by
  refine List.filter_congr fun j hj => ?_
  have hne : j ≠ key := by
    rintro rfl
    exact hks hj
  rw [vacant_of_emptied h, beq_eq_false_iff_ne.mpr hne, Bool.or_false]

end Vacant

/-- What the requests and answers so far, latest first, tell about a table. -/
structure Told (offset : Nat) (past : List (Request α × Answer α)) (s : Slab α) : Prop where
  wellFormed : s.WellFormed
  offset_eq : s.offset = offset
  /-- The fresh keys begin at the mark. -/
  next_eq : s.next = mark offset past
  /-- Of the keys that became free and were not withdrawn since, the vacant ones are free. -/
  free_eq : s.free = (standing (timeline offset past)).filter s.vacant
  /-- Keys below the offset never became free. -/
  offset_le : ∀ key, .freed key ∈ timeline offset past → offset ≤ key

namespace Told

variable {offset : Nat} {past : List (Request α × Answer α)}

theorem of_empty (offset : Nat) (policy : Capacity) : Told offset [] (empty offset policy : Slab α) where
  wellFormed := .of_empty offset policy
  offset_eq := rfl
  next_eq := rfl
  free_eq := rfl
  offset_le _ h := nomatch h

/-- A request that leaves the table as it was, by an answer that tells of nothing. -/
theorem quiet (h : Told offset past s) {entry : Request α × Answer α} (hkey : entry.2.key? = none)
    (hnothing : happenings offset (mark offset past) entry = []) :
    Told offset (entry :: past) s := by
  have htime : timeline offset (entry :: past) = timeline offset past := by
    rw [timeline, hnothing]
    rfl
  exact ⟨h.wellFormed, h.offset_eq, (mark_cons_of_none hkey).symm ▸ h.next_eq,
    htime.symm ▸ h.free_eq, htime.symm ▸ h.offset_le⟩

theorem insert (h : Told offset past s) (hins : s.insert v = .ok (key, t)) :
    Told offset ((.insert v, .stored key) :: past) t where
  wellFormed := h.wellFormed.insert hins
  offset_eq := (offset_insert hins).trans h.offset_eq
  next_eq := by
    rw [h.wellFormed.next_insert hins, mark_cons_of_some rfl, h.next_eq]
  free_eq := by
    -- it is the key at the front that goes, and it is vacant no more
    have hvacant : t.vacant = fun j => s.vacant j && j != key :=
      funext (vacant_of_stored (get?_insert hins))
    rw [h.wellFormed.free_insert hins, h.free_eq, filter_ne_filter, hvacant]
    rfl
  offset_le := h.offset_le

/-- The keys that a claim skips become free, the lowest last. -/
theorem timeline_insertAt (key : Nat) (v : α) :
    timeline offset ((.insertAt key v, .stored key) :: past)
      = (List.range' (mark offset past) (key - mark offset past)).map .freed
        ++ timeline offset past := by
  rw [timeline, happenings, ← List.map_reverse, List.reverse_reverse]

theorem insertAt (h : Told offset past s) (hins : s.insertAt key v = .ok t) :
    Told offset ((.insertAt key v, .stored key) :: past) t where
  wellFormed := h.wellFormed.insertAt hins
  offset_eq := (offset_insertAt hins).trans h.offset_eq
  next_eq := by
    rw [next_insertAt hins, mark_cons_of_some rfl, h.next_eq]
  free_eq := by
    have hvacant := vacant_of_stored (get?_insertAt hins)
    rw [h.wellFormed.free_insertAt hins, timeline_insertAt, ← h.next_eq,
      standing_freed_append (List.nodup_range' 1 Nat.one_pos), List.filter_append]
    congr 1
    · -- the keys that are skipped are fresh
      refine (List.filter_eq_self.mpr fun j hj => ?_).symm
      rw [List.mem_range'_1] at hj
      rw [hvacant, vacant_eq_true_iff.mpr (h.wellFormed.fresh_vacant j hj.1), Bool.true_and,
        bne_iff_ne]
      omega
    · -- and no key that was free is among them
      have hfresh : s.free.filter (!(List.range' s.next (key - s.next)).contains ·) = s.free := by
        refine List.filter_eq_self.mpr fun j hj => ?_
        rw [Bool.not_eq_true', Bool.eq_false_iff, ne_eq, List.contains_iff_mem, List.mem_range'_1]
        have hlt := h.wellFormed.free_lt_next j hj
        omega
      rw [← hfresh, h.free_eq, List.filter_filter, List.filter_filter, List.filter_filter]
      refine List.filter_congr fun j _ => ?_
      rw [hvacant, Bool.and_comm (j != key), Bool.and_comm _ (s.vacant j), Bool.and_right_comm,
        Bool.and_assoc]
  offset_le := by
    intro j hj
    rw [timeline_insertAt, List.mem_append] at hj
    rcases hj with hj | hj
    · obtain ⟨i, hi, hij⟩ := List.mem_map.mp hj
      obtain rfl := Happening.freed.inj hij
      rw [List.mem_range'_1] at hi
      exact Nat.le_trans (offset_le_mark offset past) hi.1
    · exact h.offset_le j hj

theorem remove (h : Told offset past s) (key : Nat) :
    Told offset ((.remove key, .taken (s.remove key).1) :: past) (s.remove key).2 := by
  cases hget : s.get? key with
  | none =>
    rw [remove_none hget]
    exact h.quiet rfl rfl
  | some v =>
    rw [fst_remove, hget]
    -- no key is used for the first time
    have hfresh : (s.remove key).2.next = mark offset ((.remove key, .taken (some v)) :: past) := by
      rw [mark_cons_of_none rfl, next_remove, h.next_eq]
    have hoffset : (s.remove key).2.offset = offset := (offset_remove s key).trans h.offset_eq
    by_cases hoff : offset ≤ key
    -- from the offset on the key is freed, and comes first
    · have htime : timeline offset ((.remove key, .taken (some v)) :: past)
          = .freed key :: timeline offset past := by
        rw [timeline, happenings, if_pos hoff]
        rfl
      refine ⟨h.wellFormed.remove key, hoffset, hfresh, ?_, fun j hj => ?_⟩
      · have hvacant : (s.remove key).2.vacant key = true := by
          rw [vacant_of_emptied (get?_remove s key), BEq.rfl, Bool.or_true]
        rw [(free_remove hget (h.offset_eq ▸ hoff)).1, htime, standing, List.filter_cons,
          if_pos hvacant, filter_vacant_of_emptied (get?_remove s key) (by simp),
          filter_filter_ne, ← filter_ne_filter, ← h.free_eq,
          filter_ne_of_notMem (h.wellFormed.notMem_free hget)]
      · rw [htime] at hj
        rcases List.mem_cons.mp hj with hj | hj
        · rw [Happening.freed.inj hj]
          exact hoff
        · exact h.offset_le j hj
    -- a key below the offset is none of the table's, and nothing has happened to it
    · have htime : timeline offset ((.remove key, .taken (some v)) :: past)
          = timeline offset past := by
        rw [timeline, happenings, if_neg hoff]
        rfl
      have hnot : key ∉ standing (timeline offset past) := fun hk =>
        hoff (h.offset_le key (freed_of_mem_standing hk))
      refine ⟨h.wellFormed.remove key, hoffset, hfresh, ?_, htime.symm ▸ h.offset_le⟩
      rw [free_remove_below hget (by rw [h.offset_eq]; omega), htime, h.free_eq,
        filter_vacant_of_emptied (get?_remove s key) hnot]

theorem retire (h : Told offset past s) (key : Nat) :
    Told offset ((.retire key, .done) :: past) (s.retire key) where
  wellFormed := h.wellFormed.retire key
  offset_eq := (offset_retire s key).trans h.offset_eq
  next_eq := by
    rw [next_retire, mark_cons_of_none rfl, h.next_eq]
  free_eq := by
    -- the key is withdrawn: whenever it was freed before, it waits no more
    have htime : timeline offset ((.retire key, .done) :: past)
        = .withdrawn key :: timeline offset past := rfl
    rw [free_retire, htime, standing, filter_vacant_of_emptied (get?_retire s key) (by simp),
      h.free_eq, filter_ne_filter, filter_filter_ne]
  offset_le := by
    intro j hj
    rcases List.mem_cons.mp hj with hj | hj
    · cases hj
    · exact h.offset_le j hj

/-- **One request.** -/
theorem serve (h : Told offset past s) (request : Request α) :
    Told offset ((request, (s.serve request).1) :: past) (s.serve request).2 := by
  cases request with
  | insert v =>
    cases hins : s.insert v with
    | error why =>
      rw [serve_insert_error hins]
      exact h.quiet rfl rfl
    | ok r =>
      obtain ⟨key, t⟩ := r
      rw [serve_insert_ok hins]
      exact h.insert hins
  | insertAt key v =>
    cases hins : s.insertAt key v with
    | error why =>
      rw [serve_insertAt_error hins]
      exact h.quiet rfl rfl
    | ok t =>
      rw [serve_insertAt_ok hins]
      exact h.insertAt hins
  | remove key => exact h.remove key
  | retire key => exact h.retire key
  | write key v =>
    refine Told.quiet ⟨h.wellFormed.set key v, (offset_set s key v).trans h.offset_eq,
      (next_set s key v).trans h.next_eq, ?_, h.offset_le⟩ rfl rfl
    show (s.set key v).free = (standing (timeline offset past)).filter (s.set key v).vacant
    rw [free_set, vacant_set, h.free_eq]

/-- **Any requests.** -/
theorem serveAll (requests : List (Request α)) : ∀ {s : Slab α}
    {past : List (Request α × Answer α)}, Told offset past s →
      Told offset ((s.serveAll requests).1.reverse ++ past) (s.serveAll requests).2 := by
  induction requests with
  | nil =>
    intro s past h
    exact h
  | cons request rest ih =>
    intro s past h
    rw [Slab.serveAll, List.reverse_cons, List.append_assoc]
    exact ih (h.serve request)

theorem of_serveAll (offset : Nat) (policy : Capacity) (requests : List (Request α)) :
    Told offset ((empty offset policy).serveAll requests).1.reverse
      ((empty offset policy).serveAll requests).2 := by
  have h := (Told.of_empty (α := α) offset policy).serveAll requests
  rw [List.append_nil] at h
  exact h

/-- The next key is due. -/
theorem due_vacantKey (h : Told offset past s) : Due offset past s s.vacantKey := by
  unfold vacantKey
  cases hfree : s.free with
  | nil =>
    refine Or.inr ⟨fun later key' => not_waits_of_filter (h.free_eq ▸ hfree), ?_⟩
    exact h.next_eq
  | cons key rest => exact Or.inl (latest_of_filter (h.free_eq ▸ hfree))

end Told

/-- Only one key is due. -/
theorem Due.unique {offset : Nat} {past : List (Request α × Answer α)} {key' : Nat}
    (h : Due offset past s key) (h' : Due offset past s key') : key = key' := by
  -- a key waits, or the next one is fresh; not both
  rcases h with h | ⟨hnone, rfl⟩
  · rcases h' with h' | ⟨hnone, -⟩
    · exact h.unique h'
    · obtain ⟨later, hw, -⟩ := h
      exact absurd hw (hnone later key)
  · rcases h' with ⟨later, hw, -⟩ | ⟨-, rfl⟩
    · exact absurd hw (hnone later key')
    · rfl

/-- **After any requests, the next key is the one that is due**, and an entry that is added is
stored under it: the key that became free last among those still vacant and not withdrawn since,
or, if there is none, the first one past all that were issued or claimed. -/
theorem serveAll_due (offset : Nat) (policy : Capacity) (requests : List (Request α)) :
    let past := ((empty offset policy).serveAll requests).1.reverse
    let s := ((empty offset policy).serveAll requests).2
    (∀ key, Due offset past s key ↔ key = s.vacantKey) ∧
      ∀ v key, (s.serve (.insert v)).1 = .stored key → Due offset past s key := by
  intro past s
  have htold : Told offset past s := .of_serveAll offset policy requests
  have hdue : ∀ key, Due offset past s key ↔ key = s.vacantKey := fun key =>
    ⟨fun h => h.unique htold.due_vacantKey, fun h => h ▸ htold.due_vacantKey⟩
  -- what a request to store is answered with is the key that was due
  refine ⟨hdue, fun v key h => (hdue key).mpr ?_⟩
  cases hins : s.insert v with
  | error why =>
    rw [serve_insert_error hins] at h
    cases h
  | ok r =>
    obtain ⟨k, t⟩ := r
    rw [serve_insert_ok hins] at h
    rw [← key_of_insert hins]
    exact (Answer.stored.inj h).symm

end Slab
end EventLoop

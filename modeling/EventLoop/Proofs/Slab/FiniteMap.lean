import EventLoop.Proofs.Slab.WellFormed
import Mathlib.Data.Finmap

/-!
# A slot table is a finite map

Whatever is asked of a slot table, it answers as a finite map from keys to
entries would that picks vacant keys of its own for `insert`.  The map is run
beside the table, request by request; the slots, the free keys, the count of
live entries and how much room was set aside do not occur in it.

## Main definitions

* `Slab.Request`, `Slab.Answer` — what can be asked of a table, and what it says.
* `Slab.serve`, `Slab.serveAll` — a table answers one request, or one after the
  other.
* `Entries.Allows` — what a finite map may answer, and what it is afterwards.
* `Entries.History` — a map that answers a list of requests from empty on.
* `Slab.Shows` — looking at a table shows a map and nothing else.

## Main results

* `Slab.serve_allows` — every answer of a table is one its map may give.
* `Slab.serve_failed` — **a request that comes to nothing changes nothing.**
* `Slab.serveAll_history` — **after any requests, a table shows the finite map
  that its answers tell of.**
-/

namespace EventLoop

variable {α : Type}

/-- Entries by key. -/
abbrev Entries (α : Type) := Finmap fun _ : Nat => α

namespace Slab

/-! ### Requests -/

/-- What can be asked of a table. -/
inductive Request (α : Type)
  /-- An entry under a key of the table's choice. -/
  | insert (v : α)
  /-- An entry under this key. -/
  | insertAt (key : Nat) (v : α)
  /-- The entry under a key, which is free then. -/
  | remove (key : Nat)
  /-- No entry under a key, which is not issued again. -/
  | retire (key : Nat)
  /-- Another entry under a live key. -/
  | write (key : Nat) (v : α)

/-- What a table answers. -/
inductive Answer (α : Type)
  /-- The entry is stored under this key. -/
  | stored (key : Nat)
  /-- The entry was refused. -/
  | refused (why : Refusal)
  /-- The entry taken out, if there was one. -/
  | taken (v : Option α)
  /-- Was there an entry to replace? -/
  | written (live : Bool)
  /-- Nothing to say. -/
  | done
  deriving DecidableEq, Repr

/-- Did a request come to nothing? -/
def Answer.failed : Answer α → Bool
  | .refused _ => true
  | .taken v => v.isNone
  | .written live => !live
  | _ => false

/-- A table answers a request. -/
def serve (s : Slab α) : Request α → Answer α × Slab α
  | .insert v =>
    match s.insert v with
    | .ok (key, t) => (.stored key, t)
    | .error why => (.refused why, s)
  | .insertAt key v =>
    match s.insertAt key v with
    | .ok t => (.stored key, t)
    | .error why => (.refused why, s)
  | .remove key => (.taken (s.remove key).1, (s.remove key).2)
  | .retire key => (.done, s.retire key)
  | .write key v => (.written (s.contains key), s.set key v)

/-- A table answers requests one after the other: requests with their answers, and the table
afterwards. -/
def serveAll (s : Slab α) : List (Request α) → List (Request α × Answer α) × Slab α
  | [] => ([], s)
  | request :: rest =>
    ((request, (s.serve request).1) :: ((s.serve request).2.serveAll rest).1,
      ((s.serve request).2.serveAll rest).2)

end Slab

/-! ### Finite maps -/

namespace Entries

open Slab (Request Answer)

/-- What a finite map may answer to a request, and what it is afterwards. -/
inductive Allows (offset : Nat) (policy : Capacity) (m : Entries α) :
    Request α → Answer α → Entries α → Prop
  /-- A key is issued that is absent and not below the offset. -/
  | insert {v : α} {key : Nat} (hkey : key ∉ m) (hoffset : offset ≤ key)
    (hroom : policy.admits m.keys.card = true) :
    Allows offset policy m (.insert v) (.stored key) (m.insert key v)
  | insert_full {v : α} (hfull : policy.admits m.keys.card = false) :
    Allows offset policy m (.insert v) (.refused .full) m
  | insertAt {key : Nat} {v : α} (hkey : key ∉ m) (hroom : policy.admits m.keys.card = true) :
    Allows offset policy m (.insertAt key v) (.stored key) (m.insert key v)
  | insertAt_taken {key : Nat} {v : α} (hkey : key ∈ m) :
    Allows offset policy m (.insertAt key v) (.refused (.taken key)) m
  | insertAt_full {key : Nat} {v : α} (hkey : key ∉ m)
    (hfull : policy.admits m.keys.card = false) :
    Allows offset policy m (.insertAt key v) (.refused .full) m
  /-- The entry taken out is the one the map holds now. -/
  | remove (key : Nat) :
    Allows offset policy m (.remove key) (.taken (m.lookup key)) (m.erase key)
  | retire (key : Nat) : Allows offset policy m (.retire key) .done (m.erase key)
  | write {key : Nat} {v : α} (hkey : key ∈ m) :
    Allows offset policy m (.write key v) (.written true) (m.insert key v)
  | write_absent {key : Nat} {v : α} (hkey : key ∉ m) :
    Allows offset policy m (.write key v) (.written false) m

/-- A map that starts from `m`, answers a list of requests in this way, and is then `m'`. -/
inductive History (offset : Nat) (policy : Capacity) :
    Entries α → List (Request α × Answer α) → Entries α → Prop
  | nil (m : Entries α) : History offset policy m [] m
  | cons {m m' m'' : Entries α} {request : Request α} {answer : Answer α}
    {rest : List (Request α × Answer α)} (hfirst : Allows offset policy m request answer m')
    (hrest : History offset policy m' rest m'') :
    History offset policy m ((request, answer) :: rest) m''

end Entries

namespace Slab

variable {s : Slab α} {m : Entries α}

/-! ### Looking at a table -/

/-- Looking at a table shows a finite map and nothing else. -/
structure Shows (s : Slab α) (m : Entries α) : Prop where
  get?_eq : ∀ key, s.get? key = m.lookup key
  contains_iff : ∀ key, s.contains key = true ↔ key ∈ m
  mem_entries_iff : ∀ key v, (key, v) ∈ s.entries ↔ m.lookup key = some v
  /-- Entries are listed in the order of their keys. -/
  ascending : s.entries.Pairwise fun a b => a.1 < b.1
  size_eq : s.size = m.keys.card
  isEmpty_iff : s.isEmpty = true ↔ m = ∅

theorem entries_ascending (s : Slab α) : s.entries.Pairwise fun a b => a.1 < b.1 := by
  have hslots : s.slots.toList.zipIdx.Pairwise fun a b => a.2 < b.2 := by
    rw [← List.pairwise_map (f := Prod.snd) (R := (· < ·)), List.zipIdx_map_snd]
    exact List.pairwise_lt_range'
  unfold entries
  refine hslots.filterMap _ ?_
  rintro ⟨slot, key⟩ ⟨slot', key'⟩ hlt e he e' he'
  obtain ⟨v, -, rfl⟩ := Option.map_eq_some_iff.mp he
  obtain ⟨v', -, rfl⟩ := Option.map_eq_some_iff.mp he'
  exact hlt

theorem keys_nodup (s : Slab α) : s.keys.Nodup := by
  rw [keys, List.Nodup, List.pairwise_map]
  exact s.entries_ascending.imp Nat.ne_of_lt

theorem mem_keys_iff {s : Slab α} {key : Nat} : key ∈ s.keys ↔ s.contains key = true := by
  rw [contains_iff, keys, List.mem_map]
  constructor
  · rintro ⟨⟨k, v⟩, hmem, rfl⟩
    exact ⟨v, mem_entries_iff.mp hmem⟩
  · rintro ⟨v, hv⟩
    exact ⟨(key, v), mem_entries_iff.mpr hv, rfl⟩

/-- A table that finds what a map holds shows the map. -/
theorem WellFormed.shows (hs : s.WellFormed) (hm : ∀ key, m.lookup key = s.get? key) :
    s.Shows m := by
  have hmem : ∀ key, s.contains key = true ↔ key ∈ m := by
    intro key
    rw [Slab.contains_iff, Finmap.mem_iff, hm]
  have hkeys : m.keys = s.keys.toFinset := by
    ext key
    rw [Finmap.mem_keys, ← hmem, List.mem_toFinset, keys, List.mem_map, Slab.contains_iff]
    constructor
    · rintro ⟨v, hv⟩
      exact ⟨(key, v), Slab.mem_entries_iff.mpr hv, rfl⟩
    · rintro ⟨⟨k, v⟩, hv, rfl⟩
      exact ⟨v, Slab.mem_entries_iff.mp hv⟩
  -- ascending keys are pairwise different, so that the list and the set have one size
  have hnodup : s.keys.Nodup := by
    unfold keys
    rw [List.Nodup, List.pairwise_map]
    exact s.entries_ascending.imp fun h => Nat.ne_of_lt h
  have hsize : s.size = m.keys.card := by
    rw [hkeys, List.toFinset_card_of_nodup hnodup, keys, List.length_map, hs.length_entries_eq]
    rfl
  refine ⟨fun key => (hm key).symm, hmem, fun key v => ?_, s.entries_ascending, hsize, ?_⟩
  · rw [hm]
    exact Slab.mem_entries_iff
  · have hempty : m = ∅ ↔ m.keys.card = 0 := by
      rw [Finset.card_eq_zero]
      constructor
      · rintro rfl
        exact Finmap.keys_empty
      · intro h
        refine Finmap.ext_lookup fun key => ?_
        rw [Finmap.lookup_empty, Finmap.lookup_eq_none, ← Finmap.mem_keys, h]
        exact Finset.notMem_empty key
    rw [hempty, ← hsize, isEmpty, beq_iff_eq]
    rfl

/-! ### One request -/

theorem lookup_insert_eq {m : Entries α} {key : Nat} {v : α} (j : Nat) :
    (m.insert key v).lookup j = if j = key then some v else m.lookup j := by
  by_cases hj : j = key
  · rw [if_pos hj, hj, Finmap.lookup_insert]
  · rw [if_neg hj, Finmap.lookup_insert_of_ne m hj]

theorem lookup_erase_eq {m : Entries α} {key : Nat} (j : Nat) :
    (m.erase key).lookup j = if j = key then none else m.lookup j := by
  by_cases hj : j = key
  · rw [if_pos hj, hj, Finmap.lookup_erase]
  · rw [if_neg hj, Finmap.lookup_erase_ne hj]

/-- A table with its settings, and the map it holds. -/
structure Holds (offset : Nat) (policy : Capacity) (s : Slab α) (m : Entries α) : Prop where
  wellFormed : s.WellFormed
  offset_eq : s.offset = offset
  policy_eq : s.policy = policy
  lookup_eq : ∀ key, m.lookup key = s.get? key

variable {offset : Nat} {policy : Capacity}

theorem Holds.shows (h : Holds offset policy s m) : s.Shows m := h.wellFormed.shows h.lookup_eq

theorem Holds.admits (h : Holds offset policy s m) :
    policy.admits m.keys.card = s.policy.admits s.live := by
  rw [← h.shows.size_eq, h.policy_eq]
  rfl

theorem serve_insert_ok {t : Slab α} {v : α} {key : Nat} (h : s.insert v = .ok (key, t)) :
    s.serve (.insert v) = (.stored key, t) := by
  simp only [serve, h]

theorem serve_insert_error {v : α} {why : Refusal} (h : s.insert v = .error why) :
    s.serve (.insert v) = (.refused why, s) := by
  simp only [serve, h]

theorem serve_insertAt_ok {t : Slab α} {v : α} {key : Nat} (h : s.insertAt key v = .ok t) :
    s.serve (.insertAt key v) = (.stored key, t) := by
  simp only [serve, h]

theorem serve_insertAt_error {v : α} {key : Nat} {why : Refusal}
    (h : s.insertAt key v = .error why) : s.serve (.insertAt key v) = (.refused why, s) := by
  simp only [serve, h]

/-- **Every answer of a table is one its map may give.** -/
theorem serve_allows (h : Holds offset policy s m) (request : Request α) :
    ∃ m', m.Allows offset policy request (s.serve request).1 m' ∧
      Holds offset policy (s.serve request).2 m' := by
  have hshows := h.shows
  have hadm := h.admits
  cases request with
  | insert v =>
    cases hins : s.insert v with
    | error why =>
      obtain ⟨rfl, hfull⟩ := insert_error hins
      rw [serve_insert_error hins]
      exact ⟨m, .insert_full (hadm.trans hfull), h⟩
    | ok r =>
      obtain ⟨key, t⟩ := r
      rw [serve_insert_ok hins]
      have hkey := key_of_insert hins
      -- the key issued is vacant in the slab, hence absent from the map
      have habsent : key ∉ m := by
        rw [← hshows.contains_iff, Bool.not_eq_true, contains_eq_false_iff, hkey]
        exact h.wellFormed.get?_vacantKey
      refine ⟨m.insert key v, .insert habsent ?_ (hadm.trans (insert_ok hins).1),
        h.wellFormed.insert hins, (offset_insert hins).trans h.offset_eq,
        (policy_insert hins).trans h.policy_eq, fun j => ?_⟩
      · rw [hkey, ← h.offset_eq]
        exact h.wellFormed.offset_le_vacantKey
      · rw [lookup_insert_eq, get?_insert hins, h.lookup_eq]
  | insertAt key v =>
    cases hins : s.insertAt key v with
    | error why =>
      rw [serve_insertAt_error hins]
      rcases insertAt_error hins with ⟨rfl, hlive⟩ | ⟨rfl, habsent, hfull⟩
      · exact ⟨m, .insertAt_taken ((hshows.contains_iff key).mp hlive), h⟩
      · refine ⟨m, .insertAt_full ?_ (hadm.trans hfull), h⟩
        rw [← hshows.contains_iff, habsent]
        exact Bool.false_ne_true
    | ok t =>
      rw [serve_insertAt_ok hins]
      obtain ⟨hvac, hroom, -⟩ := insertAt_ok hins
      refine ⟨m.insert key v, .insertAt ?_ (hadm.trans hroom), h.wellFormed.insertAt hins,
        (offset_insertAt hins).trans h.offset_eq, (policy_insertAt hins).trans h.policy_eq,
        fun j => ?_⟩
      · rw [← hshows.contains_iff, Bool.not_eq_true, contains_eq_false_iff]
        exact hvac
      · rw [lookup_insert_eq, get?_insertAt hins, h.lookup_eq]
  -- removing and retiring differ in what is issued later, not in the map
  | remove key =>
    have hentry : m.lookup key = (s.remove key).1 := by rw [fst_remove, h.lookup_eq]
    refine ⟨m.erase key, ?_, h.wellFormed.remove key, (offset_remove s key).trans h.offset_eq,
      (policy_remove s key).trans h.policy_eq, fun j => ?_⟩
    · show m.Allows offset policy (.remove key) (.taken (s.remove key).1) _
      rw [← hentry]
      exact .remove key
    · show _ = (s.remove key).2.get? j
      rw [lookup_erase_eq, get?_remove, h.lookup_eq]
  | retire key =>
    refine ⟨m.erase key, .retire key, h.wellFormed.retire key,
      (offset_retire s key).trans h.offset_eq, (policy_retire s key).trans h.policy_eq,
      fun j => ?_⟩
    show _ = (s.retire key).get? j
    rw [lookup_erase_eq, get?_retire, h.lookup_eq]
  | write key v =>
    -- a write changes the value under a live key only
    have hset : ∀ {m' : Entries α}, (∀ j, m'.lookup j = (s.set key v).get? j) →
        Holds offset policy (s.set key v) m' := fun hlook =>
      ⟨h.wellFormed.set key v, (offset_set s key v).trans h.offset_eq,
        (policy_set s key v).trans h.policy_eq, hlook⟩
    have hserve : s.serve (.write key v) = (.written (s.contains key), s.set key v) := rfl
    rw [hserve]
    cases hc : s.contains key with
    | true =>
      refine ⟨m.insert key v, .write ((hshows.contains_iff key).mp hc), hset fun j => ?_⟩
      rw [lookup_insert_eq, get?_set, hc, h.lookup_eq]
      simp only [and_true]
    | false =>
      refine ⟨m, .write_absent ?_, hset fun j => ?_⟩
      · rw [← hshows.contains_iff, hc]
        exact Bool.false_ne_true
      · rw [get?_set, hc, h.lookup_eq, if_neg fun hj => nomatch hj.2]

/-- **A request that comes to nothing changes nothing**, neither the free keys nor the next
vacant one. -/
theorem serve_failed (s : Slab α) (request : Request α)
    (h : (s.serve request).1.failed = true) : (s.serve request).2 = s := by
  cases request with
  | insert v =>
    cases hins : s.insert v with
    | error why => rw [serve_insert_error hins]
    | ok r =>
      rw [serve_insert_ok hins] at h
      cases h
  | insertAt key v =>
    cases hins : s.insertAt key v with
    | error why => rw [serve_insertAt_error hins]
    | ok t =>
      rw [serve_insertAt_ok hins] at h
      cases h
  | remove key =>
    -- a removal fails by finding nothing, and then changes nothing
    have hnone : s.get? key = none := by
      rw [← fst_remove]
      exact Option.isNone_iff_eq_none.mp h
    show (s.remove key).2 = s
    rw [remove_none hnone]
  | retire key => cases h
  | write key v =>
    have hc : s.contains key = false := (Bool.not_eq_true' _).mp h
    show s.set key v = s
    rw [set, hc]
    rfl

/-! ### Any requests -/

theorem serveAll_holds (requests : List (Request α)) : ∀ {s : Slab α} {m : Entries α},
    Holds offset policy s m →
      ∃ m', m.History offset policy (s.serveAll requests).1 m' ∧
        Holds offset policy (s.serveAll requests).2 m' := by
  induction requests with
  | nil =>
    intro s m h
    exact ⟨m, .nil m, h⟩
  | cons request rest ih =>
    intro s m h
    obtain ⟨m₁, hallows, h₁⟩ := serve_allows h request
    obtain ⟨m₂, hhistory, h₂⟩ := ih h₁
    exact ⟨m₂, .cons hallows hhistory, h₂⟩

theorem holds_empty (offset : Nat) (policy : Capacity) :
    Holds offset policy (.empty offset policy : Slab α) ∅ where
  wellFormed := .of_empty offset policy
  offset_eq := rfl
  policy_eq := rfl
  lookup_eq key := by rw [Finmap.lookup_empty, get?_empty]

/-- **After any requests, a table shows the finite map that its answers tell of.**  The map
starts empty and allows every answer; a bounded table never holds more than its limit; and
whatever is asked next, if it comes to nothing then the table is as it was. -/
theorem serveAll_history (offset : Nat) (policy : Capacity) (requests : List (Request α)) :
    ∃ m : Entries α,
      Entries.History offset policy ∅ ((empty offset policy).serveAll requests).1 m ∧
      ((empty offset policy).serveAll requests).2.Shows m ∧
      (∀ n, policy = .bounded n → ((empty offset policy).serveAll requests).2.size ≤ n) ∧
      ∀ request, (((empty offset policy).serveAll requests).2.serve request).1.failed = true →
        (((empty offset policy).serveAll requests).2.serve request).2
          = ((empty offset policy).serveAll requests).2 := by
  obtain ⟨m, hhistory, h⟩ := serveAll_holds requests (holds_empty (α := α) offset policy)
  refine ⟨m, hhistory, h.shows, fun n hn => ?_, fun request => serve_failed _ request⟩
  exact h.wellFormed.live_le n (h.policy_eq.trans hn)

/-- A claim past the fresh keys frees those it skips, and the lowest of them is issued next. -/
example : ((empty 2 (.bounded 3)).serveAll [.insert 'a', .insertAt 5 'b', .insert 'c', .remove 2,
    .insert 'd', .insert 'e']).1.map (·.2)
      = [.stored 2, .stored 5, .stored 3, .taken (some 'a'), .stored 2, .refused .full] := by
  decide

end Slab
end EventLoop

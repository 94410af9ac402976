import EventLoop.Proofs.Slab.Withdrawal

/-!
# How far the keys of a table reach

A table that chooses every key itself, and gets back the key of every entry taken out,
wastes none: each key between the offset and the mark is live or free.  The mark moves
on only when no key is free, and then more entries are live than ever before.  So the
keys reach exactly as far as the most entries that were ever live at the same time, and
a bounded table finds room for all its entries in as many slots as it meant to set aside
when it was made.

## Main definitions

* `Slab.Request.isPlain` — a request that neither claims a key nor withdraws one.
* `Slab.peak` — the most entries that are live at the same time while requests are answered.
* `Slab.Compact` — no key between the offset and the mark is wasted.

## Main results

* `Compact.serve` — a plain request wastes no key, and how far it moves the mark.
* `Compact.next_serveAll` — **after plain requests the mark is the peak past the offset.**
* `issued_of_plain` — **which keys a plain run issues.**
* `le_reservation_iff` — which tables set aside room for all their entries.
* `plain_spec` — where the keys of a plain run lie, and how many slots it takes.
* `outgrown_of_overflow` — a table that set aside too little, since the sum wrapped around.

## Rules

* How much is set aside is reckoned in words.  A caller who asks for so much that the sum
  passes the largest word gets less than the entries need.
-/

namespace EventLoop
namespace Slab

variable {α : Type} {s t : Slab α} {key : Nat} {v : α}

/-- Does a request leave the keys to the table? It may add entries and take them out, but
neither claims a key nor withdraws one. -/
def Request.isPlain : Request α → Bool
  | .insertAt _ _ | .retire _ => false
  | _ => true

/-- The most entries that are live at the same time while requests are answered. -/
def peak (s : Slab α) : List (Request α) → Nat
  | [] => s.entries.length
  | request :: rest => max s.entries.length ((s.serve request).2.peak rest)

theorem length_entries_le_peak (s : Slab α) (requests : List (Request α)) :
    s.entries.length ≤ s.peak requests := by
  cases requests with
  | nil => exact Nat.le_refl _
  | cons request rest => exact Nat.le_max_left _ _

/-! ### What requests leave alone -/

theorem settings_serve (s : Slab α) (request : Request α) :
    (s.serve request).2.offset = s.offset ∧ (s.serve request).2.policy = s.policy := by
  cases request with
  | insert v =>
    cases hins : s.insert v with
    | error why => simp [serve_insert_error hins]
    | ok r => simp [serve_insert_ok hins, offset_insert hins, policy_insert hins]
  | insertAt key v =>
    cases hins : s.insertAt key v with
    | error why => simp [serve_insertAt_error hins]
    | ok t => simp [serve_insertAt_ok hins, offset_insertAt hins, policy_insertAt hins]
  | remove key => exact ⟨offset_remove s key, policy_remove s key⟩
  | retire key => exact ⟨offset_retire s key, policy_retire s key⟩
  | write key v => exact ⟨offset_set s key v, policy_set s key v⟩

theorem size_place (s : Slab α) (key : Nat) (v : α) :
    (s.place key v).slots.size = max s.slots.size (key + 1) := by
  simp only [place, Array.size_setIfInBounds, Array.size_append, Array.size_replicate]
  omega

theorem size_insert (h : s.insert v = .ok (key, t)) :
    t.slots.size = max s.slots.size (key + 1) := by
  rcases (insert_ok h).2 with ⟨rest, -, rfl⟩ | ⟨-, rfl, rfl⟩ <;> exact size_place _ _ v

theorem size_remove (s : Slab α) (key : Nat) : (s.remove key).2.slots.size = s.slots.size := by
  cases h : s.get? key with
  | none => rw [remove_none h]
  | some v =>
    rw [remove_some h]
    dsimp only
    split <;> simp [vacate]

theorem size_set (s : Slab α) (key : Nat) (v : α) :
    (s.set key v).slots.size = s.slots.size := by
  unfold set
  split <;> simp

/-! ### No key is wasted -/

/-- No key between the offset and the mark is wasted. -/
structure Compact (s : Slab α) : Prop where
  wellFormed : s.WellFormed
  /-- No key below the offset is live. -/
  offset_le : ∀ key v, s.get? key = some v → s.offset ≤ key
  /-- There are as many keys from the offset to the mark as are live or free. -/
  next_eq : s.next = s.offset + (s.live + s.free.length)
  /-- There are no slots past the mark. -/
  size_le : s.slots.size ≤ s.next

namespace Compact

theorem of_empty (offset : Nat) (policy : Capacity) : (empty offset policy : Slab α).Compact where
  wellFormed := .of_empty offset policy
  offset_le key v h := by simp at h
  next_eq := rfl
  size_le := Nat.zero_le _

/-- An entry is added under a free key, or under the mark if there is none; only then does the
mark move, and all keys up to it are live. -/
theorem insert (hs : s.Compact) (h : s.insert v = .ok (key, t)) :
    t.Compact ∧ t.next = max s.next (s.offset + t.live) := by
  have hoffset : ∀ j w, t.get? j = some w → t.offset ≤ j := by
    intro j w hj
    rw [offset_insert h]
    rw [get?_insert h] at hj
    split at hj
    · next hkey =>
      rw [hkey, key_of_insert h]
      exact hs.wellFormed.offset_le_vacantKey
    · exact hs.offset_le j w hj
  -- a key is reused where one is free, and otherwise the next one is new
  have hkeys : (key < s.next ∧ s.free.length = t.free.length + 1) ∨
      (key = s.next ∧ s.free.length = 0 ∧ t.free.length = 0) := by
    rcases (insert_ok h).2 with ⟨rest, hf, rfl⟩ | ⟨hf, rfl, rfl⟩
    · refine Or.inl ⟨hs.wellFormed.free_lt_next key (by simp [hf]), ?_⟩
      rw [free_place, hf, List.length_cons]
    · exact Or.inr ⟨rfl, by simp [hf], by simp [free_place, hf]⟩
  -- what is left is counting: free and live keys fill the range below the next key
  have hcount := hs.next_eq
  have hroom := hs.size_le
  have hnext := hs.wellFormed.next_insert h
  have hsize := size_insert h
  have hlive := live_insert h
  have hoff := offset_insert h
  exact ⟨⟨hs.wellFormed.insert h, hoffset, by omega, by omega⟩, by omega⟩

/-- An entry is taken out, and its key is free. -/
theorem remove (hs : s.Compact) (key : Nat) : (s.remove key).2.Compact := by
  cases hget : s.get? key with
  | none =>
    rw [remove_none hget]
    exact hs
  | some v =>
    have hoff := hs.offset_le key v hget
    obtain ⟨hfree, hnext⟩ := free_remove hget hoff
    -- the count of live keys is positive, so that taking one off is exact
    have hpos : 0 < s.live := hs.wellFormed.count_eq_live ▸ countP_pos_of_get? hget
    have hcount := hs.next_eq
    refine ⟨hs.wellFormed.remove key, fun j w hj => ?_, ?_, ?_⟩
    · rw [get?_remove] at hj
      split at hj
      · cases hj
      · rw [offset_remove]
        exact hs.offset_le j w hj
    · rw [hnext, offset_remove, live_remove hget, hfree, List.length_cons]
      omega
    · rw [size_remove, hnext]
      exact hs.size_le

theorem set (hs : s.Compact) (key : Nat) (v : α) : (s.set key v).Compact where
  wellFormed := hs.wellFormed.set key v
  offset_le j w hj := by
    cases hget : s.get? j with
    | none =>
      rw [get?_set_of_vacant key v hget] at hj
      cases hj
    | some u =>
      rw [offset_set]
      exact hs.offset_le j u hget
  next_eq := by
    rw [next_set, offset_set, live_set, free_set]
    exact hs.next_eq
  size_le := by
    rw [size_set, next_set]
    exact hs.size_le

/-- A mark that stays where it is lies past all live entries. -/
theorem max_next (hs : s.Compact) {live : Nat} (h : live ≤ s.live) :
    max s.next (s.offset + live) = s.next := by
  have hnext := hs.next_eq
  omega

/-- **A plain request wastes no key**, and moves the mark on only as far as the live entries
reach. -/
theorem serve (hs : s.Compact) {request : Request α} (hr : request.isPlain = true) :
    (s.serve request).2.Compact ∧
      (s.serve request).2.next = max s.next (s.offset + (s.serve request).2.live) := by
  cases request with
  | insert v =>
    cases hins : s.insert v with
    | error why =>
      rw [serve_insert_error hins]
      exact ⟨hs, (hs.max_next (Nat.le_refl _)).symm⟩
    | ok r =>
      rw [serve_insert_ok hins]
      exact hs.insert hins
  | insertAt key v => cases hr
  | remove key =>
    refine ⟨hs.remove key, ?_⟩
    have hlive : (s.remove key).2.live ≤ s.live := by
      cases hget : s.get? key with
      | none => rw [remove_none hget]
      | some v =>
        rw [live_remove hget]
        exact Nat.sub_le _ _
    show (s.remove key).2.next = max s.next (s.offset + (s.remove key).2.live)
    rw [hs.max_next hlive, next_remove]
  | retire key => cases hr
  | write key v =>
    refine ⟨hs.set key v, ?_⟩
    show (s.set key v).next = max s.next (s.offset + (s.set key v).live)
    rw [live_set, hs.max_next (Nat.le_refl _), next_set]

/-- **After plain requests the mark is where it was, or the peak past the offset.** -/
theorem next_serveAll (requests : List (Request α)) : ∀ {s : Slab α}, s.Compact →
    (∀ request ∈ requests, request.isPlain = true) →
      (s.serveAll requests).2.Compact ∧
        (s.serveAll requests).2.next = max s.next (s.offset + s.peak requests) := by
  -- on the requests: the next key is the offset plus the most entries there ever were
  induction requests with
  | nil =>
    intro s hs hplain
    refine ⟨hs, ?_⟩
    rw [peak, hs.wellFormed.length_entries_eq]
    exact (hs.max_next (Nat.le_refl _)).symm
  | cons request rest ih =>
    intro s hs hplain
    obtain ⟨ht, hstep⟩ := hs.serve (hplain request List.mem_cons_self)
    obtain ⟨hrun, hnext⟩ := ih ht fun r hr => hplain r (List.mem_cons_of_mem _ hr)
    refine ⟨hrun, ?_⟩
    have hbefore := hs.next_eq
    have hle := length_entries_le_peak (s.serve request).2 rest
    rw [ht.wellFormed.length_entries_eq] at hle
    rw [serveAll, hnext, hstep, (settings_serve s request).1, peak, hs.wellFormed.length_entries_eq]
    omega

/-- In a table that began empty, the mark is the peak past the offset. -/
theorem next_of_empty (offset : Nat) (policy : Capacity) {requests : List (Request α)}
    (hplain : ∀ request ∈ requests, request.isPlain = true) :
    ((empty offset policy).serveAll requests).2.Compact ∧
      ((empty offset policy).serveAll requests).2.next
        = offset + (empty offset policy).peak requests := by
  obtain ⟨hrun, hnext⟩ := (of_empty offset policy).next_serveAll requests hplain
  exact ⟨hrun, hnext.trans (Nat.max_eq_right (Nat.le_add_right _ _))⟩

end Compact

/-! ### Where the keys of a plain run lie -/

/-- A bounded table never holds more entries than its limit. -/
theorem WellFormed.peak_le {n : Nat} (requests : List (Request α)) : ∀ {s : Slab α}, s.WellFormed →
    s.policy = .bounded n → s.peak requests ≤ n := by
  induction requests with
  | nil => exact fun hs hn => hs.length_entries_le hn
  | cons request rest ih =>
    intro s hs hn
    exact Nat.max_le.mpr ⟨hs.length_entries_le hn,
      ih (hs.serve request) ((settings_serve s request).2.trans hn)⟩

/-- A bounded table sets aside a slot for each of its entries, unless the caller asks for so much
that the sum passes the largest word. -/
theorem le_reservation_iff {n reserve offset : Nat} (hn : offset + n < UInt64.size)
    (hreserve : reserve < UInt64.size) :
    n + offset ≤ reservation reserve offset (.bounded n) ↔ reserve + offset < UInt64.size := by
  simp only [reservation, Capacity.limit?, Option.getD_some]
  simp only [UInt64.size] at *
  omega

theorem serveAll_append (before after : List (Request α)) : ∀ s : Slab α,
    (s.serveAll (before ++ after)).2 = ((s.serveAll before).2.serveAll after).2 := by
  induction before with
  | nil => exact fun _ => rfl
  | cons request rest ih => exact fun s => ih _

theorem offset_serveAll (requests : List (Request α)) : ∀ s : Slab α,
    (s.serveAll requests).2.offset = s.offset := by
  induction requests with
  | nil => exact fun _ => rfl
  | cons request rest ih => exact fun s => (ih _).trans (settings_serve s request).1

/-- An entry that is stored can be found. -/
theorem get?_of_stored (h : (s.serve (.insert v)).1 = .stored key) :
    (s.serve (.insert v)).2.get? key = some v := by
  cases hins : s.insert v with
  | error why =>
    rw [serve_insert_error hins] at h
    cases h
  | ok r =>
    rw [serve_insert_ok hins] at h ⊢
    rw [get?_insert hins, if_pos (Answer.stored.inj h).symm]

/-- Each answer is the one the table gives after the requests before it. -/
theorem getElem?_serveAll (requests : List (Request α)) : ∀ (s : Slab α) (i : Nat),
    (s.serveAll requests).1[i]?
      = requests[i]?.map fun r => (r, ((s.serveAll (requests.take i)).2.serve r).1) := by
  induction requests with
  | nil => exact fun _ _ => rfl
  | cons request rest ih =>
    intro s i
    cases i with
    | zero => rfl
    | succ i => exact ih (s.serve request).2 i

/-- A key that is issued in a plain run lies at the offset or past it, by less than the most entries
that were live at the same time up to then. -/
theorem issued_of_plain {offset : Nat} {policy : Capacity} {requests : List (Request α)}
    (hplain : ∀ request ∈ requests, request.isPlain = true) {i : Nat} {v : α} {key : Nat}
    (hi : ((empty offset policy).serveAll requests).1[i]? = some (.insert v, .stored key)) :
    offset ≤ key ∧ key < offset + (empty offset policy).peak (requests.take (i + 1)) := by
  rw [getElem?_serveAll, Option.map_eq_some_iff] at hi
  obtain ⟨request, hrequest, heq⟩ := hi
  obtain ⟨rfl, hstored⟩ := Prod.mk.inj heq
  obtain ⟨hrun, hnext⟩ := Compact.next_of_empty offset policy
    fun r hr => hplain r (List.mem_of_mem_take hr)
  -- right after the request, the key is live
  have hlive : ((empty offset policy).serveAll (requests.take (i + 1))).2.get? key = some v := by
    rw [List.take_add_one, hrequest, Option.toList_some, serveAll_append]
    exact get?_of_stored hstored
  have hle := hrun.offset_le key v hlive
  have hlt := hrun.wellFormed.lt_next hlive
  rw [offset_serveAll] at hle
  rw [hnext] at hlt
  exact ⟨hle, hlt⟩

/-- **Where the keys of a plain run lie, and how many slots it takes.** Each key that is issued lies
at the offset or past it, by less than the most entries that were live at the same time up to then,
the new one among them. A bounded table keeps its keys, and its slots, within its limit; and so
many slots were set aside when it was made, unless the caller asked for more than a word holds. -/
theorem plain_spec (offset : Nat) (policy : Capacity) (requests : List (Request α))
    (hplain : ∀ request ∈ requests, request.isPlain = true) :
    let s : Slab α := empty offset policy
    (∀ i v key, (s.serveAll requests).1[i]? = some (.insert v, .stored key) →
        offset ≤ key ∧ key < offset + s.peak (requests.take (i + 1))) ∧
      ∀ n, policy = .bounded n → offset + n < UInt64.size →
        (∀ v key, (.insert v, .stored key) ∈ (s.serveAll requests).1 → key < offset + n) ∧
        (s.serveAll requests).2.slots.size ≤ n + offset ∧
        ∀ reserve < UInt64.size,
          n + offset ≤ reservation reserve offset policy ↔ reserve + offset < UInt64.size := by
  intro s
  refine ⟨fun i v key => issued_of_plain hplain, ?_⟩
  rintro n rfl hn
  have hpeak : ∀ served : List (Request α), s.peak served ≤ n := fun served =>
    (WellFormed.of_empty offset (.bounded n)).peak_le served rfl
  refine ⟨fun v key hmem => ?_, ?_, fun reserve => le_reservation_iff hn⟩
  · obtain ⟨i, hi⟩ := List.mem_iff_getElem?.mp hmem
    have hlt : key < offset + s.peak (requests.take (i + 1)) := (issued_of_plain hplain hi).2
    have hle := hpeak (requests.take (i + 1))
    omega
  · obtain ⟨hrun, hnext⟩ := Compact.next_of_empty offset (.bounded n) hplain
    have hsize : (s.serveAll requests).2.slots.size ≤ offset + s.peak requests :=
      hnext ▸ hrun.size_le
    have hle := hpeak requests
    omega

/-- A table of three entries from key 2 on: keys are given back and issued again, and the third
entry at a time is stored under the last key of all. -/
def shortRun : List (Request Char) :=
  [.insert 'a', .insert 'b', .remove 2, .insert 'c', .insert 'd', .insert 'e']

theorem plain_spec_shortRun :
    (∀ request ∈ shortRun, request.isPlain = true) ∧
      ((empty 2 (.bounded 3)).serveAll shortRun).1[4]? = some (.insert 'd', .stored 4) ∧
      (empty 2 (.bounded 3)).peak (shortRun.take 5) = 3 ∧ 2 ≤ 4 ∧ 4 < 2 + 3 ∧
      2 + 3 < UInt64.size ∧ ((empty 2 (.bounded 3)).serveAll shortRun).2.slots.size ≤ 3 + 2 ∧
      0 < UInt64.size ∧ 3 + 2 ≤ reservation 0 2 (.bounded 3) := by
  have hplain : ∀ request ∈ shortRun, request.isPlain = true := by decide
  have hlog :
      ((empty 2 (.bounded 3)).serveAll shortRun).1[4]? = some (.insert 'd', .stored 4) := rfl
  have hpeak : (empty 2 (.bounded 3)).peak (shortRun.take 5) = 3 := by decide
  have hword : 2 + 3 < UInt64.size := by decide
  obtain ⟨hissued, hbounded⟩ := plain_spec 2 (.bounded 3) shortRun hplain
  obtain ⟨hle, hlt⟩ := hissued 4 'd' 4 hlog
  rw [hpeak] at hlt
  obtain ⟨-, hsize, hreserve⟩ := hbounded 3 rfl hword
  exact ⟨hplain, hlog, hpeak, hle, hlt, hword, hsize, by decide,
    (hreserve 0 (by decide)).mpr (by decide)⟩

/-- A caller who asks for as many slots as a word can count gets a single one, since the sum with
the offset wraps around; and three entries outgrow it. -/
theorem outgrown_of_overflow :
    (∀ request ∈ shortRun, request.isPlain = true) ∧ 2 + 3 < UInt64.size ∧
      reservation (UInt64.size - 1) 2 (.bounded 3) = 1 ∧
      ((empty 2 (.bounded 3)).serveAll shortRun).2.slots.size = 5 ∧
      ¬ ∀ reserve < UInt64.size, ((empty 2 (.bounded 3)).serveAll shortRun).2.slots.size
        ≤ reservation reserve 2 (.bounded 3) := by
  have hreserved : reservation (UInt64.size - 1) 2 (.bounded 3) = 1 := by decide
  have hslots : ((empty 2 (.bounded 3)).serveAll shortRun).2.slots.size = 5 := by decide
  refine ⟨by decide, by decide, hreserved, hslots, fun hall => ?_⟩
  have hle := hall (UInt64.size - 1) (by decide)
  rw [hreserved, hslots] at hle
  exact absurd hle (by decide)

end Slab
end EventLoop

import EventLoop.Capacity

/-!
# Slot tables

A table keyed by small numbers. Keys below the offset are never issued, but may be claimed.
A freed key is the next to be issued, before any fresh one.

## Main definitions

* `Slab` — the slots, the stack of free keys, the first key never used, and the number of
  live entries.
* `Slab.get?` — the finite map a slab stands for.
* `Slab.vacantKey`, `Slab.insert` — the next key, and an entry under it.
* `Slab.insertAt` — an entry under a key of the caller's choice.
* `Slab.remove`, `Slab.retire` — free a key, or withdraw it from being issued.
* `Slab.entries` — the live entries, in the order of their keys.

Keys are unbounded here; a table whose keys leave the range of a word would not fit into
any memory.
-/

namespace EventLoop

/-- A table of entries keyed by small numbers. -/
structure Slab (α : Type) where
  /-- The slot of each key below the size of this array. -/
  slots : Array (Option α)
  /-- Free keys, the next one to be issued first. -/
  free : List Nat
  /-- The first key that was never issued or claimed. -/
  next : Nat
  /-- How many slots hold an entry. -/
  live : Nat
  /-- The first key that may be issued. -/
  offset : Nat
  /-- The ceiling on live entries. -/
  policy : Capacity

namespace Slab

variable {α β : Type}

/-- Why an entry was refused. -/
inductive Refusal
  /-- The ceiling is reached. -/
  | full
  /-- The key holds an entry. -/
  | taken (key : Nat)
  deriving DecidableEq, Repr

/-- A table without entries that issues keys from `offset` on. -/
def empty (offset : Nat) (policy : Capacity) : Slab α where
  slots := #[]
  free := []
  next := offset
  live := 0
  offset := offset
  policy := policy

/-- How many slots a new table sets aside, in 64-bit arithmetic. -/
def reservation (reserve offset : Nat) (policy : Capacity) : Nat :=
  (max reserve (policy.limit?.getD 0) + offset) % UInt64.size

/-- The most slots of `width` bytes that one block of memory can hold. -/
def largestBlock (width : Nat) : Nat := (UInt64.size / 2 - 1) / width

/-- The entry under a key. -/
def get? (s : Slab α) (key : Nat) : Option α := (s.slots[key]?).join

/-- Does the key hold an entry? -/
def contains (s : Slab α) (key : Nat) : Bool := (s.get? key).isSome

/-- The number of live entries. -/
def size (s : Slab α) : Nat := s.live

/-- Are there no live entries? -/
def isEmpty (s : Slab α) : Bool := s.live == 0

/-- The key the next `insert` will use. -/
def vacantKey (s : Slab α) : Nat := s.free.headD s.next

/-- Puts an entry into a slot, making room for it. -/
def place (s : Slab α) (key : Nat) (v : α) : Slab α :=
  let grown := s.slots ++ Array.replicate (key + 1 - s.slots.size) none
  { s with slots := grown.setIfInBounds key (some v), live := s.live + 1 }

/-- Takes the entry out of a slot. -/
def vacate (s : Slab α) (key : Nat) : Slab α :=
  { s with slots := s.slots.setIfInBounds key none, live := s.live - 1 }

/-- Adds an entry under the next key. -/
def insert (s : Slab α) (v : α) : Except Refusal (Nat × Slab α) :=
  if s.policy.admits s.live then
    match s.free with
    | key :: rest => .ok (key, { s with free := rest }.place key v)
    | [] => .ok (s.next, { s with next := s.next + 1 }.place s.next v)
  else .error .full

/-- Withdraws a key from the free ones. A key past the first unused one frees the keys
skipped over, which are then issued lowest first. -/
def claim (s : Slab α) (key : Nat) : Slab α :=
  if s.next ≤ key then
    { s with free := List.range' s.next (key - s.next) ++ s.free, next := key + 1 }
  else if s.offset ≤ key then { s with free := s.free.filter (· != key) }
  else s

/-- Adds an entry under a key of the caller's choice. -/
def insertAt (s : Slab α) (key : Nat) (v : α) : Except Refusal (Slab α) :=
  if s.contains key then .error (.taken key)
  else if s.policy.admits s.live then .ok ((s.claim key).place key v)
  else .error .full

/-- Takes an entry out and frees its key. An absent key changes nothing. -/
def remove (s : Slab α) (key : Nat) : Option α × Slab α :=
  match s.get? key with
  | none => (none, s)
  | some v =>
    let s := s.vacate key
    (some v, if s.offset ≤ key then { s with free := key :: s.free } else s)

/-- Takes an entry out, if there is one, without freeing its key. -/
def retire (s : Slab α) (key : Nat) : Slab α :=
  let s := if s.contains key then s.vacate key else s
  { s with free := s.free.filter (· != key) }

/-- Replaces the entry under a live key. -/
def set (s : Slab α) (key : Nat) (v : α) : Slab α :=
  if s.contains key then { s with slots := s.slots.setIfInBounds key (some v) } else s

/-- Replaces every live entry. -/
def mapValues (s : Slab α) (f : α → α) : Slab α :=
  { s with slots := s.slots.map (·.map f) }

/-- The live entries, in the order of their keys. -/
def entries (s : Slab α) : List (Nat × α) :=
  (s.slots.toList.zipIdx).filterMap fun (slot, key) => slot.map fun v => (key, v)

/-- The live keys, in ascending order. -/
def keys (s : Slab α) : List Nat := s.entries.map (·.1)

@[simp] theorem get?_empty (offset : Nat) (policy : Capacity) (key : Nat) :
    (empty offset policy : Slab α).get? key = none := by
  simp [empty, get?]

@[simp] theorem contains_empty (offset : Nat) (policy : Capacity) (key : Nat) :
    (empty offset policy : Slab α).contains key = false := by
  simp [contains]

@[simp] theorem entries_empty (offset : Nat) (policy : Capacity) :
    (empty offset policy : Slab α).entries = [] := rfl

end Slab

end EventLoop

import EventLoop.Errno

/-!
# Bounded counters

The 64-bit counter behind a wake-up descriptor. It never wraps: an addition that would
pass the largest value is refused and changes nothing. A read takes the whole count.

## Main definitions

* `Counter` — a count with the proof that it is at most `Counter.max`.
* `Counter.add` — the operating system's addition, which can be refused.
* `Counter.signal` — addition as a wake-up: a counter that is full already is as good.
* `Counter.drain` — reads the count and starts again from zero.
-/

namespace EventLoop

/-- The largest count a counter can hold. -/
def Counter.max : Nat := UInt64.size - 2

/-- A count that never passes `Counter.max`. -/
structure Counter where
  /-- The count. -/
  value : Nat
  /-- The bound every operation keeps. -/
  value_le_max : value ≤ Counter.max := by decide
  deriving DecidableEq

namespace Counter

/-- The counter of a new descriptor. -/
def zero : Counter where
  value := 0

/-- Readable exactly while the count is positive. -/
def isReadable (c : Counter) : Bool := decide (0 < c.value)

/-- Adds `n`: the largest word is no legal addend, and a sum past `max` has to wait. -/
def add (c : Counter) (n : Nat) : Except Errno Counter :=
  if UInt64.size - 1 ≤ n then .error .invalid
  else if h : c.value + n ≤ max then .ok ⟨c.value + n, h⟩
  else .error .wouldBlock

/-- Adds `n` to wake a reader. A full counter is readable already, so only an illegal
addend is reported as a failure. -/
def signal (c : Counter) (n : Nat) : Bool × Counter :=
  match c.add n with
  | .ok c => (true, c)
  | .error e => (e == .wouldBlock, c)

/-- Takes the whole count; an empty counter gives zero. -/
def drain (c : Counter) : Nat × Counter := (c.value, zero)

/-- As `signal`, where there need not be a counter. -/
def signal? (c : Option Counter) (n : Nat) : Bool × Option Counter :=
  match c with
  | some c => ((c.signal n).1, some (c.signal n).2)
  | none => (false, none)

/-- As `drain`, where there need not be a counter. -/
def drain? (c : Option Counter) : Nat × Option Counter :=
  match c with
  | some c => (c.drain.1, some c.drain.2)
  | none => (0, none)

@[simp] theorem value_zero : zero.value = 0 := rfl

@[simp] theorem isReadable_zero : zero.isReadable = false := rfl

@[simp] theorem drain_snd (c : Counter) : c.drain.2 = zero := rfl

end Counter

end EventLoop

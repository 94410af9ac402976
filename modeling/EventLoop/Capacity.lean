/-!
# Capacities

The sizing contract that the session table and the channels share.

## Main definitions

* `Capacity` — no ceiling, or a hard ceiling on live entries or queued values.
* `Capacity.admits c live` — one more entry may join `live` others.

## Main statements

* `admits_bounded_iff` — a bounded capacity admits exactly while it is not reached.
-/

namespace EventLoop

/-- How many entries a table or a queue may hold. -/
inductive Capacity
  /-- No ceiling imposed by the caller. -/
  | unbounded
  /-- At most `limit` entries; a limit of zero admits nothing. -/
  | bounded (limit : Nat)
  deriving DecidableEq, Repr

namespace Capacity

/-- May one more entry be added while `live` entries exist? -/
def admits : Capacity → Nat → Bool
  | .unbounded, _ => true
  | .bounded limit, live => decide (live < limit)

/-- The ceiling, if there is one. -/
def limit? : Capacity → Option Nat
  | .unbounded => none
  | .bounded limit => some limit

/-- A capacity as it is written in answers and log lines. -/
def text : Capacity → String
  | .unbounded => "Unbounded"
  | .bounded limit => "Bounded(" ++ toString limit ++ ")"

@[simp] theorem admits_unbounded (live : Nat) : unbounded.admits live = true := rfl

@[simp] theorem admits_bounded_iff {limit live : Nat} :
    (bounded limit).admits live = true ↔ live < limit := by
  simp [admits]

/-- A capacity that admits no first entry admits none at all. -/
theorem admits_eq_false_of_zero {c : Capacity} (h : c.admits 0 = false) (live : Nat) :
    c.admits live = false := by
  cases c with
  | unbounded => cases h
  | bounded limit =>
    have hlimit : ¬ 0 < limit := of_decide_eq_false h
    exact decide_eq_false fun hlt => hlimit (Nat.zero_lt_of_lt hlt)

end Capacity

end EventLoop

import EventLoop.Readiness

/-!
# Reactions

What goes into a reactor and what comes out of it: nothing, an event on its way to
its owner, or a value.

## Main definitions

* `Reaction α` — the three outcomes of one turn.
* `Reaction.pass` — the same outcome at another value type; a value does not survive.
-/

namespace EventLoop

/-- The outcome of one turn of a reactor. -/
inductive Reaction (α : Type)
  /-- No output this turn. -/
  | idle
  /-- An event nobody has claimed yet. -/
  | event (e : Event)
  /-- A value. -/
  | value (v : α)
  deriving DecidableEq, Repr

namespace Reaction

variable {α β : Type}

/-- Is it a value? -/
def isValue : Reaction α → Bool
  | .value _ => true
  | _ => false

/-- Is it an event? -/
def isEvent : Reaction α → Bool
  | .event _ => true
  | _ => false

/-- Is there no output? -/
def isIdle : Reaction α → Bool
  | .idle => true
  | _ => false

/-- The value, if it is one. -/
def value? : Reaction α → Option α
  | .value v => some v
  | _ => none

/-- The event, if it is one. -/
def event? : Reaction α → Option Event
  | .event e => some e
  | _ => none

/-- The same event, or no output, at another value type. A value is not carried over. -/
def pass : Reaction α → Reaction β
  | .event e => .event e
  | _ => .idle

/-- The values a reaction contributes to a queue: one or none. -/
def values : Reaction α → List α
  | .value v => [v]
  | _ => []

/-- The reaction with its value, if any, replaced. -/
def map (f : α → β) : Reaction α → Reaction β
  | .idle => .idle
  | .event e => .event e
  | .value v => .value (f v)

@[simp] theorem pass_idle : (idle : Reaction α).pass = (idle : Reaction β) := rfl
@[simp] theorem pass_event (e : Event) : (event e : Reaction α).pass = (event e : Reaction β) := rfl
@[simp] theorem pass_value (v : α) : (value v).pass = (idle : Reaction β) := rfl

@[simp] theorem values_idle : (idle : Reaction α).values = [] := rfl
@[simp] theorem values_event (e : Event) : (event e : Reaction α).values = [] := rfl
@[simp] theorem values_value (v : α) : (value v).values = [v] := rfl

end Reaction

end EventLoop

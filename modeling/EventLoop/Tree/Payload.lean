import EventLoop.Net.Socket

/-!
# Payloads

The kinds of value that travel between the stages of a reactor tree. A tree is built at run
time, so the kinds are data, and each has a type of values.

## Main definitions

* `Payload` — the kinds of value; `Payload.Val` is the type of values of a kind.
* `Join` — how the outputs of two stages become one: as they are if they agree, and
  otherwise tagged with the side they came from.
-/

namespace EventLoop

/-- A kind of value. -/
inductive Payload
  /-- No information beyond its arrival. -/
  | unit
  /-- A signed 64-bit number. -/
  | int
  /-- Text. -/
  | text
  /-- Raw bytes. -/
  | bytes
  /-- A stream that was just accepted. -/
  | connection
  /-- A value or the cause of a failure. -/
  | outcome (p : Payload)
  /-- A value of one of two kinds. -/
  | choice (p q : Payload)
  deriving DecidableEq, Repr

/-- The values of a kind. -/
@[reducible] def Payload.Val : Payload → Type
  | .unit => Unit
  | .int => Int64
  | .text => String
  | .bytes => List UInt8
  | .connection => Connection
  | .outcome p => Except Failure p.Val
  | .choice p q => p.Val ⊕ q.Val

/-- How the outputs of two stages become one output. -/
inductive Join : Payload → Payload → Payload → Type
  /-- Both sides give the same kind, which is the output. -/
  | same {p : Payload} : Join p p p
  /-- The output says which side a value came from. -/
  | tagged {p q : Payload} : Join p q (.choice p q)

namespace Join

variable {p q r : Payload}

/-- A value of the first side as a joint output. -/
def first : Join p q r → p.Val → r.Val
  | .same, v => v
  | .tagged, v => .inl v

/-- A value of the second side as a joint output. -/
def second : Join p q r → q.Val → r.Val
  | .same, v => v
  | .tagged, v => .inr v

end Join

end EventLoop

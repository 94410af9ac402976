/-!
# Readiness

What a resource wants to be woken for, what the multiplexer reports, and the event
that carries the report to a reactor.

## Main definitions

* `Token` — the identity of a registered resource; `systemToken` is never issued.
* `Interest` — the kinds of readiness a registration asks for.
* `Ready` — the kinds of readiness a wait reported.
* `Event` — a readiness report for one token.
-/

namespace EventLoop

/-- Identity of a registered resource. -/
abbrev Token := Nat

/-- The largest 64-bit word, reserved for the loop's own stop signal. -/
def systemToken : Token := UInt64.size - 1

/-! ### Interests -/

/-- What a resource wants to be woken up for. -/
inductive Interest
  /-- Data, connections or end of stream. -/
  | readable
  /-- Room to write. -/
  | writable
  /-- Either. -/
  | both
  deriving DecidableEq, Repr

namespace Interest

/-- Does it ask for readable readiness? -/
def isReadable : Interest → Bool
  | .writable => false
  | _ => true

/-- Does it ask for writable readiness? -/
def isWritable : Interest → Bool
  | .readable => false
  | _ => true

/-- What either of two interests asks for. -/
def union : Interest → Interest → Interest
  | .readable, .readable => .readable
  | .writable, .writable => .writable
  | _, _ => .both

@[simp] theorem isReadable_union (a b : Interest) :
    (a.union b).isReadable = (a.isReadable || b.isReadable) := by
  cases a <;> cases b <;> rfl

@[simp] theorem isWritable_union (a b : Interest) :
    (a.union b).isWritable = (a.isWritable || b.isWritable) := by
  cases a <;> cases b <;> rfl

end Interest

/-! ### Reports -/

/-- What the multiplexer reported, as a set of flags. -/
structure Ready where
  /-- Bit 0 is readable, bit 1 writable, bit 2 closed. -/
  bits : UInt8
  deriving DecidableEq, Repr

namespace Ready

/-- Nothing reported. -/
def nothing : Ready := ⟨0⟩

/-- The report with exactly these flags. -/
def ofFlags (readable writable closed : Bool) : Ready :=
  ⟨(if readable then 1 else 0) ||| (if writable then 2 else 0) ||| (if closed then 4 else 0)⟩

/-- The resource can be read. -/
def isReadable (r : Ready) : Bool := r.bits &&& 1 != 0

/-- The resource can be written. -/
def isWritable (r : Ready) : Bool := r.bits &&& 2 != 0

/-- The resource was hung up or failed. -/
def isClosed (r : Ready) : Bool := r.bits &&& 4 != 0

/-- No flag at all is set. -/
def isEmpty (r : Ready) : Bool := r.bits == 0

/-- The flags of either report. -/
def union (a b : Ready) : Ready := ⟨a.bits ||| b.bits⟩

/-- The flags as they are written: a letter for each that is set, a dash otherwise. -/
def text (r : Ready) : String :=
  (if r.isReadable then "r" else "-") ++ (if r.isWritable then "w" else "-") ++
    (if r.isClosed then "c" else "-")

@[simp] theorem isReadable_ofFlags (r w c : Bool) : (ofFlags r w c).isReadable = r := by
  cases r <;> cases w <;> cases c <;> rfl

@[simp] theorem isWritable_ofFlags (r w c : Bool) : (ofFlags r w c).isWritable = w := by
  cases r <;> cases w <;> cases c <;> rfl

@[simp] theorem isClosed_ofFlags (r w c : Bool) : (ofFlags r w c).isClosed = c := by
  cases r <;> cases w <;> cases c <;> rfl

end Ready

/-! ### Events -/

/-- A readiness report for one token. -/
structure Event where
  /-- The registration it is about. -/
  token : Token
  /-- What was reported. -/
  ready : Ready
  deriving DecidableEq, Repr

/-- An event as it is written in log lines. -/
def Event.text (e : Event) : String :=
  "Event(" ++ toString e.token ++ "," ++ e.ready.text ++ ")"

end EventLoop

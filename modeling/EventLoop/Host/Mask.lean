import EventLoop.Readiness

/-!
# Readiness masks

The bit masks in which the multiplexer is asked for readiness and answers.

## Main definitions

* `Mask` — a set of flags.
* `Interest.mask` — what is asked for; asking for input also asks for half-closed streams.
* `Mask.ready` — what an answer means to a reactor.
-/

namespace EventLoop

/-- A set of readiness flags. -/
structure Mask where
  /-- The flags. -/
  bits : UInt32
  deriving DecidableEq, Repr

namespace Mask

/-- No flag. -/
def none : Mask := ⟨0⟩
/-- There is something to read. -/
def input : Mask := ⟨0x1⟩
/-- There is room to write. -/
def output : Mask := ⟨0x4⟩
/-- An error is pending. -/
def error : Mask := ⟨0x8⟩
/-- Both directions are closed. -/
def hangup : Mask := ⟨0x10⟩
/-- The peer will write no more. -/
def peerClosed : Mask := ⟨0x2000⟩

/-- The flags of either mask. -/
def union (a b : Mask) : Mask := ⟨a.bits ||| b.bits⟩

/-- The flags of both masks. -/
def inter (a b : Mask) : Mask := ⟨a.bits &&& b.bits⟩

/-- Is there no flag? -/
def isEmpty (m : Mask) : Bool := m.bits == 0

/-- Do two masks share a flag? -/
def meets (a b : Mask) : Bool := !(a.inter b).isEmpty

/-- The mask, or nothing. -/
def when (m : Mask) (condition : Bool) : Mask := if condition then m else none

/-- The flags that are reported whether asked for or not. -/
def always : Mask := error.union hangup

/-- What a mask means to a reactor. -/
def ready (m : Mask) : Ready :=
  .ofFlags (m.meets input) (m.meets output) (m.meets (always.union peerClosed))

end Mask

/-- The flags an interest asks for. -/
def Interest.mask (i : Interest) : Mask :=
  ((Mask.input.union .peerClosed).when i.isReadable).union (Mask.output.when i.isWritable)

end EventLoop

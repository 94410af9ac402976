import EventLoop.Evented
import EventLoop.Reaction

/-!
# Streams in a tree

A stream that stands in a tree is the stream as it is registered with the loop, and nothing
besides. So it is read and written by `Evented.read` and `Evented.write`, and its latches are
cleared by them; a turn in the tree only sets them.

## Main definitions

* `Evented.wake` — one turn of a stream stage: it answers its own events with a unit, having
  latched the readiness for whoever reads or writes the stream then.
-/

namespace EventLoop

namespace Evented

/-- One turn of a stream stage. -/
def wake (e : Evented Socket) (input : Reaction Unit) (l : Loop) :
    Reaction Unit × Evented Socket × Loop :=
  match input with
  | .event event =>
    match e.accept event l with
    | (true, e, l) => (.value (), e, l)
    | (false, e, l) => (.event event, e, l)
  | _ => (.idle, e, l)

end Evented

end EventLoop

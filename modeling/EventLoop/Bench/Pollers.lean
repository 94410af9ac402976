import EventLoop.Bench.Systems

/-!
# Operations on multiplexers of their own

## Main definitions

* `Op.openPoller`, `Op.movePoller` — a multiplexer comes, or moves to another place.
* `Op.watch`, `Op.watchAgain`, `Op.unwatch` — what it watches.
* `Op.awaitEvents` — one wait.
-/

namespace EventLoop

namespace Op

/-- A multiplexer. -/
def pollerNamed (name : String) : Op Poller := part name fun
  | .poller p => some p
  | _ => none

/-- Acts on the host if that goes well. -/
def tryHost (f : Host → Except Failure Host) : Op (Except Failure Unit) := onHost fun h =>
  match f h with
  | .ok h => (.ok (), h)
  | .error e => (.error e, h)

/-- Makes a multiplexer. -/
def openPoller (name : String) (source : Source) : Op (Except Failure Unit) := do
  match Poller.create source (← get).host with
  | .error e => return .error e
  | .ok (p, h) =>
    modify (·.withHost h)
    place name (.poller p)
    return .ok ()

/-- Moves a multiplexer to another place; what was there goes. Has either a descriptor
afterwards? -/
def movePoller (source target : String) : Op (Bool × Bool) := do
  let p ← pollerNamed source
  let held := p.descriptor.isSome
  if source = target then return (held, held)
  else
    modify (·.put source (.poller { p with descriptor := none }))
    place target (.poller p)
    return (false, held)

/-- Lets a multiplexer watch a descriptor. -/
def watch (poller : String) (name : Option String) (token : Token) (i : Interest) :
    Op (Except Failure Unit) := do
  let p ← pollerNamed poller
  let fd ← descriptorOf name
  tryHost fun h => p.add fd token i h

/-- Lets a multiplexer watch a descriptor differently. -/
def watchAgain (poller : String) (name : Option String) (token : Token) (i : Interest) :
    Op (Except Failure Unit) := do
  let p ← pollerNamed poller
  let fd ← descriptorOf name
  tryHost fun h => p.modify fd token i h

/-- Lets a multiplexer watch a descriptor no longer. -/
def unwatch (poller : String) (name : Option String) : Op (Except Failure Unit) := do
  let p ← pollerNamed poller
  let fd ← descriptorOf name
  tryHost fun h => p.remove fd h

/-- The events that are there before a wait that adds to them: so many, in descending
order of their tokens. -/
def prefilled (count : Nat) : List Event :=
  (List.range count).reverse.map fun n => ⟨n + 1, .nothing⟩

/-- One wait, with so many events there before it. -/
def awaitEvents (poller : String) (most : Nat) (timeout : Int) (before : Nat) :
    Op (Except Failure Nat × List Event) := do
  let p ← pollerNamed poller
  onHost fun h =>
    let (r, events, h) := p.wait (prefilled before) most timeout h
    ((r, events), h)

end Op

end EventLoop

import EventLoop.Channel.Table
import EventLoop.Evented
import EventLoop.Reaction

/-!
# Producers

Sources of values for a tree. Each has a descriptor that is readable while it has something
to give, so that the loop comes back to it.

## Main definitions

* `Generator` — a queue of values, one per turn of its own.
* `Mono` — a single value, on its own event.
* `Evented.receive` — the receiving end of a channel, one value per turn of its own.
-/

namespace EventLoop

/-! ### Generators -/

/-- A queue of values. -/
structure Generator (α : Type) where
  /-- The values still to come, next one first. -/
  queue : List α
  /-- The descriptor and its registration. -/
  evented : Evented Notifier

namespace Generator

variable {α : Type}

/-- A registered generator of some values. -/
def create (values : List α) (l : Loop) : Except Failure (Generator α) × Loop :=
  let (n, h) := Notifier.create l.host
  match (Evented.new n .readable).register { l with host := h } with
  | (.ok (), e, l) =>
    (.ok ⟨values, e⟩, if values.isEmpty then l else { l with host := e.inner.set l.host })
  | (.error f, e, l) => (.error f, { l with host := e.inner.close l.host })

/-- One turn. -/
def react (g : Generator α) (input : Reaction Unit) (h : Host) :
    Reaction α × Generator α × Host :=
  let yield : Reaction α × Generator α × Host :=
    match g.queue with
    | [] => (.idle, g, g.evented.inner.clear h)
    | v :: rest =>
      (.value v, { g with queue := rest }, if rest.isEmpty then g.evented.inner.clear h else h)
  match input with
  | .value _ => (.idle, g, h)
  | .idle => yield
  | .event event => if g.evented.owns event then yield else (.event event, g, h)

/-- Adds a value to come. -/
def push (g : Generator α) (v : α) (h : Host) : Generator α × Host :=
  ({ g with queue := g.queue ++ [v] },
    if g.queue.isEmpty then g.evented.inner.set h else h)

end Generator

/-! ### Single values -/

/-- A single value. -/
structure Mono (α : Type) where
  /-- The value, until it has come out. -/
  value : Option α
  /-- The descriptor and its registration. -/
  evented : Evented Notifier

namespace Mono

variable {α : Type}

/-- A registered producer of one value. -/
def create (v : α) (l : Loop) : Except Failure (Mono α) × Loop :=
  let (n, h) := Notifier.create l.host
  match (Evented.new n .readable).register { l with host := h } with
  | (.ok (), e, l) => (.ok ⟨some v, e⟩, { l with host := e.inner.set l.host })
  | (.error f, e, l) => (.error f, { l with host := e.inner.close l.host })

/-- One turn. -/
def react (m : Mono α) (input : Reaction Unit) (h : Host) : Reaction α × Mono α × Host :=
  match input with
  | .event event =>
    if m.evented.owns event then
      let h := m.evented.inner.clear h
      match m.value with
      | some v => (.value v, { m with value := none }, h)
      | none => (.idle, m, h)
    else (.event event, m, h)
  | _ => (.idle, m, h)

end Mono

/-! ### Channels -/

instance : Pollable Receiver where
  descriptor r := r.bell.descriptor
  hollow r := { r with bell := .hollow }
  close _ h := h

namespace Evented

/-- One turn of the receiving end of a channel. -/
def receive {α : Type} (e : Evented Receiver) (input : Reaction Unit) (t : Channels α)
    (h : Host) : Reaction α × Channels α × Host :=
  let take : Reaction α × Channels α × Host :=
    match t.receive e.inner.channel h with
    | (.ok v, t, h) => (.value v, t, h)
    | (.error _, t, h) => (.idle, t, h)
  match input with
  | .value _ => (.idle, t, h)
  | .idle => take
  | .event event => if e.owns event then take else (.event event, t, h)

end Evented

end EventLoop

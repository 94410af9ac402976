import EventLoop.Evented
import EventLoop.Reaction

/-!
# Listeners

Accept connections, and as a stage of a tree, one connection per turn.

## Main definitions

* `Listener` — a listening socket; over a path, with the socket file it owns.
* `Listener.bindUnix`, `Listener.bindTcp`, `Listener.accept`, `Listener.close`.
* `Evented.listen` — one turn of the stage. It accepts while its readable latch is set; a
  failed accept clears the latch and gives no output.

A listener over a path removes its socket file when it goes, whoever made the file.
-/

namespace EventLoop

/-- A listening socket. -/
structure Listener where
  /-- The address family. -/
  family : Family
  /-- The descriptor; none for a listener that was moved away. -/
  descriptor : Option Nat
  /-- The path it is bound to; empty over the network. -/
  path : String
  deriving DecidableEq, Repr

namespace Listener

/-- Binds a listener to a path. If it cannot listen, its socket file goes again. -/
def bindUnix (path : String) (h : Host) : Except Failure Listener × Host :=
  match h.listen path with
  | .error (.socket e) => (.error (.os .socket e), h)
  | .error .path => (.error (.badSocketPath path), h)
  | .error (.refused e) => (.error (.os .bind e), h)
  | .ok (fd, bound) =>
    match h.listenFault with
    | none => (.ok ⟨.unix, some fd, path⟩, bound)
    | some e => (.error (.os .listen e), ((bound.unlink path).toOption.getD bound).close fd)

/-- Binds a listener to an endpoint. -/
def bindTcp (endpoint : String) (h : Host) : Except Failure Listener × Host :=
  match Endpoint.parse? endpoint.toList with
  | none => (.error (.badEndpoint endpoint), h.note (.badEndpoint endpoint))
  | some e =>
    match h.serve e.target with
    | .ok (fd, bound) =>
      match h.listenFault with
      | none => (.ok ⟨.tcp, some fd, ""⟩, bound)
      | some e => (.error (.os .listen e), bound.close fd)
    | .error (.socket e) => (.error (.os .socket e), h)
    | .error .path => (.error (.badEndpoint endpoint), h)
    | .error (.refused e) => (.error (.os .bind e), h)

/-- Takes the oldest pending connection. -/
def accept (s : Listener) (h : Host) : Except Failure Connection × Host :=
  match h.persist (Host.attempt (·.accept s.descriptor)) with
  | (.ok (fd, peer), h) => (.ok ⟨⟨s.family, some fd⟩, peer⟩, h)
  | (.error e, h) => (.error (.os .accept e), h)

/-- A signal does not keep a listener from accepting. -/
theorem accept_eq (s : Listener) (h : Host) : s.accept h
    = match h.calm.accept s.descriptor with
      | .ok ((fd, peer), h) => (.ok ⟨⟨s.family, some fd⟩, peer⟩, h)
      | .error e => (.error (.os .accept e), h.calm) := by
  unfold accept
  rw [Host.persist_eq, Host.attempt]
  cases h.calm.accept s.descriptor <;> rfl

/-- The name of a listener. -/
def localName (s : Listener) (h : Host) : Except Failure String :=
  (h.ownName s.descriptor).mapError (.os .localName)

/-- Removes the socket file. -/
def unlinkPath (s : Listener) (h : Host) : Host :=
  if s.path.isEmpty then h
  else
    match h.unlink s.path with
    | .ok h => h
    | .error e => h.note (.unlinkFailed s.path e)

/-- Removes the socket file and gives the descriptor back. -/
def close (s : Listener) (h : Host) : Host := (s.unlinkPath h).close? s.descriptor

/-- A listener that was moved away. -/
def hollow (s : Listener) : Listener := { s with descriptor := none, path := "" }

/-- Moves `source` to the place of `target`, which is given back: what is there afterwards,
and what is left of `source`. -/
def assign (target source : Listener) (h : Host) : Listener × Listener × Host :=
  (source, source.hollow, target.close h)

end Listener

instance : Pollable Listener where
  descriptor s := s.descriptor
  hollow s := s.hollow
  close s h := s.close h

namespace Evented

/-- One turn of the accepting stage. -/
def listen (e : Evented Listener) (input : Reaction Unit) (l : Loop) :
    Reaction Connection × Evented Listener × Loop :=
  let attempt (e : Evented Listener) (l : Loop) :=
    if e.readable then
      match e.inner.accept l.host with
      | (.ok c, h) => (.value c, e, { l with host := h })
      | (.error _, h) => (.idle, e.clearReadable, { l with host := h })
    else (.idle, e, l)
  match input with
  | .value _ => (.idle, e, l)
  | .idle => attempt e l
  | .event event =>
    match e.accept event l with
    | (false, e, l) => (.event event, e, l)
    | (true, e, l) => attempt e l

end Evented

end EventLoop

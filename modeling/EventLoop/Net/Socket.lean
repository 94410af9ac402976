import EventLoop.Failure
import EventLoop.Host.Network

/-!
# Streams

A stream by its descriptor, and the ways to come by one.

## Main definitions

* `Socket` — a stream of either family.
* `Socket.pair`, `Socket.connectUnix`, `Socket.connectTcp` — new streams.
* `Socket.read`, `Socket.write`, `Socket.shutSend`, `Socket.pendingError`.
* `Socket.localName`, `Socket.peerName` — the names of its two ends.
* `Socket.fill`, `Socket.drain` — sends or receives for as long as that goes without waiting.
* `Connection` — a stream that was just accepted, and the peer it came from.
-/

namespace EventLoop

/-- Which address family a stream belongs to. -/
inductive Family
  /-- A stream between processes of one host. -/
  | unix
  /-- A stream over the network. -/
  | tcp
  deriving DecidableEq, Repr

/-- A stream by its descriptor. -/
structure Socket where
  /-- The address family. -/
  family : Family
  /-- The descriptor; none for a stream that was never opened or was moved away. -/
  descriptor : Option Nat
  deriving DecidableEq, Repr

namespace Socket

open Host (attempt)

/-- Two connected streams without names. -/
def pair (h : Host) : Except Failure ((Socket × Socket) × Host) :=
  match h.pair with
  | .ok ((a, b), h) => .ok ((⟨.unix, some a⟩, ⟨.unix, some b⟩), h)
  | .error e => .error (.os .pair e)

/-- Connects to the listener at a path. -/
def connectUnix (path : String) (h : Host) : Except Failure (Socket × Host) :=
  match h.connect path with
  | .ok (fd, h) => .ok (⟨.unix, some fd⟩, h)
  | .error (.socket e) => .error (.os .socket e)
  | .error .path => .error (.os .connect .nameTooLong)
  | .error (.refused e) => .error (.os .connect e)

/-- Starts to connect to an endpoint. -/
def connectTcp (endpoint : String) (h : Host) : Except Failure Socket × Host :=
  match Endpoint.parse? endpoint.toList with
  | none => (.error (.badEndpoint endpoint), h.note (.badEndpoint endpoint))
  | some e =>
    match h.dial e.target with
    | .ok (fd, h) => (.ok ⟨.tcp, some fd⟩, h)
    | .error (.socket e) => (.error (.os .socket e), h)
    | .error .path => (.error (.badEndpoint endpoint), h)
    | .error (.refused e) => (.error (.os .connect e), h)

/-- Receives at most `most` bytes. -/
def read (s : Socket) (most : Nat) (h : Host) : Except Failure (List UInt8) × Host :=
  match h.persist (·.receive s.descriptor most) with
  | (.ok bytes, h) => (.ok bytes, h)
  | (.error e, h) => (.error (.os .receive e), h)

/-- Sends bytes. -/
def write (s : Socket) (bytes : List UInt8) (h : Host) : Except Failure Nat × Host :=
  match h.persist (attempt (·.send s.descriptor bytes)) with
  | (.ok n, h) => (.ok n, h)
  | (.error e, h) => (.error (.os .send e), h)

/-- Sends zero bytes until no more are taken; the answer says why. -/
def fill (s : Socket) (h : Host) : Except Failure Nat × Host := s.write [0] (h.fill s.descriptor)

/-- Receives until nothing is left; the answer says why it stopped. -/
def drain (s : Socket) (h : Host) : Except Failure Unit × Host :=
  match h.drain s.descriptor with
  | (.ok (), h) => (.ok (), h)
  | (.error e, h) => (.error (.os .receive e), h)

/-- Closes the sending direction. -/
def shutSend (s : Socket) (h : Host) : Except Failure Unit × Host :=
  match h.shutSend s.descriptor with
  | .ok h => (.ok (), h)
  | .error e => (.error (.os .shutdown e), h)

/-- The name of the other end. -/
def peerName (s : Socket) (h : Host) : Except Failure String :=
  (h.peerName s.descriptor).mapError (.os .peerName)

/-- The error that came in the meantime, if there is one. It is reported once. -/
def pendingError (s : Socket) (h : Host) : Except Failure Unit × Host :=
  match h.takeFault s.descriptor with
  | .ok (none, h) => (.ok (), h)
  | .ok (some e, h) => (.error (.os .pendingError e), h)
  | .error e => (.error (.os .pendingError e), h)

/-- Asks for small writes to be sent at once; there is nothing to be asked otherwise. -/
def setNoDelay (s : Socket) (on : Bool) : Except Failure Unit :=
  match s.descriptor, on with
  | none, true => .error (.os .noDelay .badDescriptor)
  | _, _ => .ok ()

/-- The name of this end. -/
def localName (s : Socket) (h : Host) : Except Failure String :=
  (h.ownName s.descriptor).mapError (.os .localName)

/-! ### Laws -/

/-- A read is what the host receives once no signal comes any more. -/
theorem read_eq (s : Socket) (most : Nat) (h : Host) : s.read most h
    = ((h.calm.receive s.descriptor most).1.mapError (.os .receive),
      (h.calm.receive s.descriptor most).2) := by
  unfold read
  rw [Host.persist_eq]
  rcases h.calm.receive s.descriptor most with ⟨r, h'⟩
  cases r <;> rfl

/-- A write is what the host sends then. -/
theorem write_eq (s : Socket) (bytes : List UInt8) (h : Host) : s.write bytes h
    = match h.calm.send s.descriptor bytes with
      | .ok (n, h) => (.ok n, h)
      | .error e => (.error (.os .send e), h.calm) := by
  unfold write
  rw [Host.persist_eq, attempt]
  cases h.calm.send s.descriptor bytes <;> rfl

end Socket

/-- A stream that was just accepted. -/
structure Connection where
  /-- The stream. -/
  socket : Socket
  /-- The name of the other end. -/
  peer : String
  deriving DecidableEq, Repr

end EventLoop

import EventLoop.Address.Network
import EventLoop.Counter
import EventLoop.Host.Mask
import EventLoop.Log.Journal
import EventLoop.Path

/-!
# The host

The part of the operating system a loop talks to: the table of open descriptors and what
stands behind each, the socket files, the answers of the multiplexer, and the journal.

## Main definitions

* `Binding` — what a socket can be bound to.
* `Object` — what a descriptor can refer to.
* `Host` — the whole state.
* `Host.allocate`, `Host.close` — a new descriptor is the lowest free number; closing one
  takes it out of every multiplexer.
* `Host.ready` — the readiness of a descriptor at this moment.
-/

namespace EventLoop

/-! ### What descriptors refer to -/

/-- A descriptor a multiplexer watches. -/
structure Watch where
  /-- The descriptor. -/
  descriptor : Nat
  /-- The token reported for it. -/
  token : Token
  /-- What to report. -/
  mask : Mask
  deriving DecidableEq, Repr

/-- What a socket can be bound to. -/
inductive Binding
  /-- A path; an empty one is no name. -/
  | path (path : String)
  /-- An address of the network. -/
  | address (s : SocketAddress)
  /-- Nothing: there is nobody at this end. -/
  | nowhere
  deriving DecidableEq, Repr

/-- The name of a socket in writing. -/
def Binding.text : Binding → Except Errno String
  | .path name => .ok (Path.text name)
  | .address s => .ok (String.ofList s.text)
  | .nowhere => .error .notConnected

/-- What stands behind an open descriptor. -/
inductive Object
  /-- A wake-up counter. -/
  | counter (c : Counter)
  /-- A multiplexer with the descriptors it watches. -/
  | multiplexer (watches : List Watch)
  /-- One end of a stream, by its number. -/
  | stream (number : Nat)
  /-- A listener for streams, with what it is bound to and the ends nobody has accepted yet. -/
  | listener (bound : Binding) (backlog : List Nat)
  /-- A regular file. -/
  | file
  deriving DecidableEq

/-- One end of a stream. -/
structure StreamEnd where
  /-- The number of the other end. -/
  peer : Nat
  /-- What it is bound to. -/
  name : Binding
  /-- Bytes that have arrived and were not read, oldest first. -/
  inbox : List UInt8
  /-- How many zero bytes have arrived behind them. While there are any, the sender waits. -/
  padding : Nat
  /-- Nothing can be sent from here any more. -/
  sendShut : Bool
  /-- Nothing can arrive here any more. -/
  receiveShut : Bool
  /-- What went wrong with the connection: nobody answered, or the peer went away without
  reading everything. This is reported once. -/
  fault : Option Errno
  deriving DecidableEq, Repr

namespace StreamEnd

/-- A new end. -/
def new (peer : Nat) (name : Binding) : StreamEnd := ⟨peer, name, [], 0, false, false, none⟩

/-- Is there something to read? -/
def hasData (e : StreamEnd) : Bool := !e.inbox.isEmpty || 0 < e.padding

/-- Does it take no further bytes for now? -/
def isFull (e : StreamEnd) : Bool := 0 < e.padding

end StreamEnd

/-- A name a listener can be bound to. -/
inductive SocketName
  /-- A file. It outlives the listener. -/
  | file (e : Entry)
  /-- A name outside the file system. It goes with the listener. -/
  | detached (name : String)
  deriving DecidableEq, Repr

/-! ### The answers of the multiplexer -/

/-- What one wait gives. -/
inductive Outcome
  /-- It fails. -/
  | fail (errno : Errno)
  /-- It reports readiness by token. -/
  | batch (reports : List (Token × Mask))
  deriving DecidableEq, Repr

/-- Where the answers of a multiplexer come from. -/
inductive Source
  /-- The state of the descriptors. -/
  | live
  /-- A script. -/
  | scripted
  deriving DecidableEq, Repr

/-! ### The host -/

/-- The state of the operating system. -/
structure Host where
  /-- What each descriptor number refers to. -/
  descriptors : Array (Option Object)
  /-- Every end of a stream there ever was. -/
  ends : Array StreamEnd
  /-- The names listeners were bound to, with the descriptor that listens there. -/
  names : List (SocketName × Option Nat)
  /-- How many more descriptors may be opened, if that is limited. -/
  spare : Option Nat
  /-- The answers scripted multiplexers will give. -/
  script : List Outcome
  /-- Size and timeout of each scripted wait, latest first. -/
  waits : List (Int × Int)
  /-- How many endless waits in a row have ended without an answer. -/
  quiet : Nat
  /-- How many channels were ever made. -/
  channels : Nat
  /-- What was said. -/
  journal : Journal
  /-- The error number that is left behind by a line that cannot be written to the log, if there
  is anything wrong with the log. -/
  logFault : Option Errno
  /-- What it knows of the network. -/
  network : Network
  /-- Why no socket can listen, if so. -/
  listenFault : Option Errno
  /-- How many of the next calls on sockets a signal will interrupt. -/
  signals : Nat

namespace Host

/-- A host without a network on which nothing has happened. -/
def initial (journal : Journal) : Host where
  descriptors := #[]
  ends := #[]
  names := []
  spare := none
  script := []
  waits := []
  quiet := 0
  channels := 0
  journal := journal
  logFault := none
  network := .none
  listenFault := none
  signals := 0

/-- Says something. -/
def note (h : Host) (n : Notice) : Host := { h with journal := h.journal.add n }

/-- What the error number of the last call has become once a line of some level was said. -/
def errnoAfter (h : Host) (level : Level) (e : Errno) : Errno :=
  if h.journal.wants level then h.logFault.getD e else e

/-- What a descriptor refers to. -/
def object? (h : Host) (fd : Nat) : Option Object := (h.descriptors[fd]?).join

/-- What a descriptor refers to; the descriptor may be missing altogether. -/
def objectOf? (h : Host) (fd : Option Nat) : Option Object := fd.bind h.object?

/-- Changes what an open descriptor refers to. -/
def setObject (h : Host) (fd : Nat) (o : Object) : Host :=
  { h with descriptors := h.descriptors.setIfInBounds fd (some o) }

/-- The lowest number that is free. -/
def vacant (h : Host) : Nat :=
  (h.descriptors.toList.findIdx? Option.isNone).getD h.descriptors.size

/-- May `count` more descriptors be opened? -/
def allows (h : Host) (count : Nat) : Bool :=
  match h.spare with
  | none => true
  | some n => count ≤ n

/-- Opens a descriptor under the lowest free number. -/
def allocate (h : Host) (o : Object) : Except Errno (Nat × Host) :=
  if h.allows 1 then
    let fd := h.vacant
    let grown := if fd < h.descriptors.size then h.descriptors else h.descriptors.push none
    .ok (fd, { h with
      descriptors := grown.setIfInBounds fd (some o)
      spare := h.spare.map (· - 1) })
  else .error .tooManyOpen

/-! ### Ends of streams -/

/-- One end of a stream. -/
def end? (h : Host) (number : Nat) : Option StreamEnd := h.ends[number]?

/-- Changes one end of a stream. -/
def modifyEnd (h : Host) (number : Nat) (f : StreamEnd → StreamEnd) : Host :=
  { h with ends := h.ends.modify number f }

/-- Two new ends that are connected with each other, and what they are bound to. -/
def connectEnds (h : Host) (name name' : Binding) : (Nat × Nat) × Host :=
  let first := h.ends.size
  let second := first + 1
  ((first, second), { h with ends := (h.ends.push (.new second name)).push (.new first name') })

/-- Takes one end away. The other can neither send nor receive any more; it is told so
abruptly if bytes were left unread, or if nobody had accepted the connection. -/
def hangUp (h : Host) (number : Nat) (unaccepted : Bool) : Host :=
  match h.end? number with
  | none => h
  | some e =>
    let h := h.modifyEnd number fun e =>
      { e with inbox := [], padding := 0, sendShut := true, receiveShut := true }
    h.modifyEnd e.peer fun p =>
      { p with
        sendShut := true
        receiveShut := true
        fault := if e.hasData || unaccepted then some .connectionReset else p.fault }

/-! ### Closing -/

/-- Takes a descriptor out of every multiplexer. -/
def unwatch (h : Host) (fd : Nat) : Host :=
  { h with descriptors := h.descriptors.map fun
      | some (.multiplexer watches) =>
        some (.multiplexer (watches.filter (·.descriptor != fd)))
      | other => other }

/-- Socket files outlive their listener; names outside the file system do not. -/
def releaseNames (h : Host) (fd : Nat) : Host :=
  { h with names := h.names.filterMap fun
      | (.file e, owner) => some (.file e, if owner = some fd then none else owner)
      | (.detached name, owner) =>
        if owner = some fd then none else some (.detached name, owner) }

/-- What happens to an object when its descriptor goes. -/
def discard (h : Host) (fd : Nat) : Object → Host
  | .stream number => h.hangUp number false
  | .listener _ backlog => backlog.foldl (fun h number => h.hangUp number true) (h.releaseNames fd)
  | _ => h

/-- Closes a descriptor. -/
def close (h : Host) (fd : Nat) : Host :=
  match h.object? fd with
  | none => h
  | some o =>
    let h := (h.unwatch fd).discard fd o
    { h with
      descriptors := h.descriptors.setIfInBounds fd none
      spare := h.spare.map (· + 1) }

/-- Closes a descriptor, if there is one. -/
def close? (h : Host) (fd : Option Nat) : Host :=
  match fd with
  | some fd => h.close fd
  | none => h

/-- Lets a regular file take over a descriptor number. The file has to be opened first, under
a number of its own; if that fails nothing happens. -/
def supersede (h : Host) (fd : Nat) : Host :=
  match h.object? fd with
  | none => h
  | some o => if h.allows 1 then ((h.unwatch fd).discard fd o).setObject fd .file else h

/-! ### Readiness -/

/-- The readiness of a stream end. -/
def endMask (h : Host) (e : StreamEnd) : Mask :=
  let room := match h.end? e.peer with
    | some p => !p.isFull
    | none => true
  ((((Mask.input.when (e.hasData || e.receiveShut)).union (Mask.output.when room)).union
    (Mask.peerClosed.when e.receiveShut)).union
    (Mask.hangup.when (e.receiveShut && e.sendShut))).union
    (Mask.error.when e.fault.isSome)

/-- The readiness of an object. A regular file never has to be waited for. -/
def mask (h : Host) : Object → Mask
  | .counter c => (Mask.input.when c.isReadable).union .output
  | .stream number =>
    match h.end? number with
    | some e => h.endMask e
    | none => .none
  | .listener _ backlog => Mask.input.when !backlog.isEmpty
  | .file => Mask.input.union .output
  | .multiplexer _ => .none

/-- The readiness of a descriptor. -/
def readiness (h : Host) (fd : Option Nat) : Mask :=
  match h.objectOf? fd with
  | some o => h.mask o
  | none => .none

/-- Is there something to read at a descriptor? -/
def isReadable (h : Host) (fd : Option Nat) : Bool := (h.readiness fd).meets .input

end Host

end EventLoop

import EventLoop.Host.Basic

/-!
# Sockets

Byte streams between the processes of a host, and listeners for them.

## Main definitions

* `Host.persist` — a call that is made again for as long as a signal interrupts it.
* `Host.pair`, `Host.connect`, `Host.accept` — ways to a connected stream.
* `Host.send`, `Host.receive`, `Host.shutSend`, `Host.takeFault` — what can be done with it.
* `Host.ownName`, `Host.peerName` — what its two ends are bound to.
* `Host.listen`, `Host.unlink`, `Host.hasFile` — listeners and their socket files.
* `Host.vacantName`, `Host.nameAt` — what a path says to a listener and to who connects to it.
-/

namespace EventLoop

namespace Host

/-! ### Signals -/

section

variable {α : Type}

/-- A call that fails leaves everything as it is. -/
def attempt (call : Host → Except Errno (α × Host)) (h : Host) : Except Errno α × Host :=
  match call h with
  | .ok (a, h) => (.ok a, h)
  | .error e => (.error e, h)

/-- A signal may come before a call has done anything. -/
def interruptible (call : Host → Except Errno α × Host) (h : Host) : Except Errno α × Host :=
  match h.signals with
  | 0 => call h
  | n + 1 => (.error .interrupted, { h with signals := n })

/-- Makes a call, and makes it again if a signal has come, at most `n` times. -/
def retry (call : Host → Except Errno α × Host) : Nat → Host → Except Errno α × Host
  | 0, h => interruptible call h
  | n + 1, h =>
    match interruptible call h with
    | (.error .interrupted, h) => retry call n h
    | r => r

/-- Makes a call, again and again until no signal comes. -/
def persist (call : Host → Except Errno α × Host) (h : Host) : Except Errno α × Host :=
  retry call h.signals h

/-- No signal comes any more. -/
def calm (h : Host) : Host := { h with signals := 0 }

/-- Signals are not noticed: in the end the call is made as if none had come. -/
theorem persist_eq (call : Host → Except Errno α × Host) (h : Host) :
    h.persist call = call h.calm := by
  suffices hall : ∀ n (h : Host), h.signals = n → retry call n h = call h.calm from hall _ h rfl
  intro n
  induction n with
  | zero =>
    intro h hnone
    have hcalm : h.calm = h := by
      rw [calm, ← hnone]
    rw [hcalm, retry, interruptible, hnone]
  | succ n ih =>
    intro h hsome
    rw [retry, interruptible, hsome]
    exact ih { h with signals := n } rfl

end

/-! ### Names -/

/-- How many bytes a socket address has for its path. -/
def pathRoom : Nat := 108

/-- Does a path fit into a socket address? -/
def pathFits (path : String) : Bool := !path.isEmpty && path.utf8ByteSize < pathRoom

/-- Is this a name outside the file system? -/
def isDetached (path : String) : Bool := path.startsWith "\x00"

/-- Has some listener been bound to this name? -/
def isNamed (h : Host) (name : SocketName) : Bool := h.names.any (·.1 == name)

/-- Is this entry a socket file? -/
def isFile (h : Host) (e : Entry) : Bool := h.isNamed (.file e)

/-- Is there something at a path? -/
def hasFile (h : Host) (path : String) : Bool := (Path.find h.isFile path).isOk

/-- Removes the socket file at a path. -/
def unlink (h : Host) (path : String) : Except Errno Host :=
  (Path.removable h.isFile path).map fun e =>
    { h with names := h.names.filter (·.1 != .file e) }

/-- The name a listener can be bound to. -/
def vacantName (h : Host) (path : String) : Except Errno SocketName :=
  if isDetached path then
    if h.isNamed (.detached path) then .error .addressInUse else .ok (.detached path)
  else
    match Path.vacancy h.isFile path with
    | .ok e => .ok (.file e)
    | .error e => .error (if e = .alreadyExists then .addressInUse else e)

/-- The name a path leads to. Nobody listens at what is no socket file. -/
def nameAt (h : Host) (path : String) : Except Errno SocketName :=
  if isDetached path then .ok (.detached path)
  else
    match Path.find h.isFile path with
    | .ok (.file e) => .ok (.file e)
    | .ok _ => .error .connectionRefused
    | .error e => .error e

/-! ### Connected streams -/

/-- Opens both ends of a new stream. -/
def pair (h : Host) : Except Errno ((Nat × Nat) × Host) :=
  if h.allows 2 then
    let ((first, second), h) := h.connectEnds (.path "") (.path "")
    match h.allocate (.stream first) with
    | .error e => .error e
    | .ok (a, h) =>
      match h.allocate (.stream second) with
      | .error e => .error e
      | .ok (b, h) => .ok ((a, b), h)
  else .error .tooManyOpen

/-- Why a socket could not be bound or connected. -/
inductive SocketFault
  /-- There is no descriptor for it. -/
  | socket (errno : Errno)
  /-- The path does not fit into a socket address. -/
  | path
  /-- The operating system refused. -/
  | refused (errno : Errno)
  deriving DecidableEq, Repr

/-- The descriptor that listens under a name, with its path and backlog. -/
def listenerAt (h : Host) (name : SocketName) : Except Errno (Nat × Binding × List Nat) :=
  match h.names.find? (·.1 == name) with
  | some (_, some fd) =>
    match h.object? fd with
    | some (.listener bound backlog) => .ok (fd, bound, backlog)
    | _ => .error .connectionRefused
  | _ => .error .connectionRefused

/-- Connects to a listener of this host. The listener finds the other end in its backlog. -/
def connect (h : Host) (path : String) : Except SocketFault (Nat × Host) :=
  if !h.allows 1 then .error (.socket .tooManyOpen)
  else if !pathFits path then .error .path
  else
    match (h.nameAt path).bind h.listenerAt with
    | .error e => .error (.refused e)
    | .ok (listener, bound, backlog) =>
      let ((accepted, own), h) := h.connectEnds bound (.path "")
      let h := h.setObject listener (.listener bound (backlog ++ [accepted]))
      (h.allocate (.stream own)).mapError .socket

/-- What the other end of a stream is bound to. -/
def farName (h : Host) (number : Nat) : Except Errno String :=
  match (h.end? number).bind fun e => h.end? e.peer with
  | some e => e.name.text
  | none => .error .notConnected

/-- Takes the oldest connection out of a listener's backlog. The descriptor is reserved
before the backlog is looked at. -/
def accept (h : Host) (listener : Option Nat) : Except Errno ((Nat × String) × Host) :=
  match h.objectOf? listener, listener with
  | some o, some fd =>
    if !h.allows 1 then .error .tooManyOpen
    else
      match o with
      | .listener bound (number :: backlog) =>
        match (h.setObject fd (.listener bound backlog)).allocate (.stream number) with
        | .error e => .error e
        | .ok (client, h) => .ok ((client, (h.farName number).toOption.getD ""), h)
      | .listener _ [] => .error .wouldBlock
      | _ => .error .notSocket
  | _, _ => .error .badDescriptor

/-- The number of the stream end behind a descriptor. -/
def streamOf (h : Host) (fd : Option Nat) : Except Errno Nat :=
  match h.objectOf? fd with
  | some (.stream number) => .ok number
  | some _ => .error .notSocket
  | none => .error .badDescriptor

/-- Sends bytes, all or none. -/
def send (h : Host) (fd : Option Nat) (bytes : List UInt8) : Except Errno (Nat × Host) :=
  match h.streamOf fd with
  | .error e => .error e
  | .ok number =>
    match h.end? number with
    | none => .error .badDescriptor
    | some e =>
      if e.sendShut then .error .brokenPipe
      else if bytes.isEmpty then .ok (0, h)
      else if ((h.end? e.peer).elim false (·.isFull)) then .error .wouldBlock
      else .ok (bytes.length, h.modifyEnd e.peer fun p => { p with inbox := p.inbox ++ bytes })

/-- How many zero bytes fill up a stream. -/
def fillSize : Nat := 44 * 4096

/-- Sends zero bytes until no more are taken. -/
def fill (h : Host) (fd : Option Nat) : Host :=
  match h.streamOf fd with
  | .error _ => h
  | .ok number =>
    match h.end? number with
    | none => h
    | some e =>
      if e.sendShut then h
      else h.modifyEnd e.peer fun p => if p.isFull then p else { p with padding := fillSize }

/-- Receives at most `most` bytes. Nothing is received at the end of the stream. An end that
is open and has nothing to read has to wait, however few bytes are asked for. -/
def receive (h : Host) (fd : Option Nat) (most : Nat) : Except Errno (List UInt8) × Host :=
  match h.streamOf fd with
  | .error e => (.error e, h)
  | .ok number =>
    match h.end? number with
    | none => (.error .badDescriptor, h)
    | some e =>
      if e.hasData then
        let bytes := e.inbox.take most
        let zeros := min e.padding (most - bytes.length)
        (.ok (bytes ++ List.replicate zeros 0),
          h.modifyEnd number fun e =>
            { e with inbox := e.inbox.drop most, padding := e.padding - zeros })
      else
        match e.fault with
        | some errno => (.error errno, h.modifyEnd number fun e => { e with fault := none })
        | none => if e.receiveShut then (.ok [], h) else (.error .wouldBlock, h)

/-- How many bytes can be received without waiting. -/
def available (h : Host) (fd : Option Nat) : Nat :=
  match h.streamOf fd with
  | .error _ => 0
  | .ok number => (h.end? number).elim 0 fun e => e.inbox.length + e.padding

/-- Receives until nothing is left; the answer says why it stopped. -/
def drain (h : Host) (fd : Option Nat) : Except Errno Unit × Host :=
  match h.streamOf fd with
  | .error e => (.error e, h)
  | .ok number =>
    let h := h.modifyEnd number fun e => { e with inbox := [], padding := 0 }
    match h.receive fd 1 with
    | (.ok _, h) => (.ok (), h)
    | (.error e, h) => (.error e, h)

/-- Closes the sending direction. -/
def shutSend (h : Host) (fd : Option Nat) : Except Errno Host :=
  match h.streamOf fd with
  | .error e => .error e
  | .ok number =>
    match h.end? number with
    | none => .error .badDescriptor
    | some e =>
      .ok ((h.modifyEnd number fun e => { e with sendShut := true }).modifyEnd e.peer fun p =>
        { p with receiveShut := true })

/-- What went wrong with a stream, if anything did. It is not reported again. -/
def takeFault (h : Host) (fd : Option Nat) : Except Errno (Option Errno × Host) :=
  match h.streamOf fd with
  | .error e => .error e
  | .ok number =>
    .ok ((h.end? number).bind (·.fault), h.modifyEnd number fun e => { e with fault := none })

/-- What a socket is bound to. -/
def ownName (h : Host) (fd : Option Nat) : Except Errno String :=
  match h.objectOf? fd with
  | some (.listener bound _) => bound.text
  | some (.stream number) =>
    match h.end? number with
    | some e => e.name.text
    | none => .error .notConnected
  | some _ => .error .notSocket
  | none => .error .badDescriptor

/-- What the other end of a stream is bound to. -/
def peerName (h : Host) (fd : Option Nat) : Except Errno String :=
  match h.streamOf fd with
  | .error e => .error e
  | .ok number => h.farName number

/-! ### Listeners -/

/-- Binds a listener to a path, which creates its socket file. -/
def listen (h : Host) (path : String) : Except SocketFault (Nat × Host) :=
  if !h.allows 1 then .error (.socket .tooManyOpen)
  else if !pathFits path then .error .path
  else
    match h.vacantName path with
    | .error e => .error (.refused e)
    | .ok name =>
      match h.allocate (.listener (.path path) []) with
      | .error e => .error (.socket e)
      | .ok (fd, h) => .ok (fd, { h with names := h.names ++ [(name, some fd)] })

end Host

end EventLoop

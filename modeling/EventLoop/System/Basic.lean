import EventLoop.Channel.Basic
import EventLoop.Poller

/-!
# The system

The owner of an event loop: a multiplexer, the table of the registrations made with it, and
the control channel through which the loop is told to stop.

## Main definitions

* `System` — the three together; `System.init` makes one, `System.retire` takes it down.
* `Loop` — a system and the host it runs on.
* `Loop.register`, `Loop.registerAt` — a descriptor under the next token, or one of the
  caller's choice.
* `Loop.reregister`, `Loop.deregister` — change or end a registration.
* `Loop.stop`, `Loop.drainControl` — tell the loop to stop, and hear it.
-/

namespace EventLoop

/-- What a running loop can be told. -/
inductive Command
  /-- Finish the current batch and return. -/
  | stop
  deriving DecidableEq, Repr

/-- What is known of a registered descriptor. -/
structure Registration where
  /-- The descriptor. -/
  descriptor : Option Nat
  /-- What it is watched for. -/
  interest : Interest
  deriving DecidableEq, Repr

/-- The settings of a system. -/
structure Config where
  /-- Events per wait. -/
  maxEvents : Nat
  /-- How long a wait of the running loop lasts; negative is forever. -/
  timeout : Int
  /-- The ceiling on registrations. -/
  capacity : Capacity
  /-- Where the answers of the multiplexer come from. -/
  source : Source
  deriving DecidableEq, Repr

/-- The usual settings. -/
def Config.standard (source : Source) : Config := ⟨1024, -1, .unbounded, source⟩

/-- The owner of an event loop. -/
structure System where
  /-- The settings. -/
  config : Config
  /-- The multiplexer. -/
  poller : Poller
  /-- The registrations by token. -/
  table : Slab Registration
  /-- The channel of commands to the loop. -/
  control : Channel Command
  /-- Was the loop told to stop? -/
  stopping : Bool

namespace System

/-- A system that was never made: nothing can be registered with it. -/
def absent : System where
  config := .standard .scripted
  poller := ⟨none, .scripted⟩
  table := Slab.empty 0 .unbounded
  control := ⟨0, .unbounded, [], .hollow, 0, false, false, 0⟩
  stopping := false

/-- Makes a system. Its multiplexer watches the bell of the control channel from the start;
if that cannot be, everything made so far goes again. -/
def init (config : Config) (h : Host) : Except Failure System × Host :=
  match Poller.create config.source h with
  | .error e => (.error e, h)
  | .ok (poller, h) =>
    let (control, h) := Channel.create .unbounded h
    match poller.add control.bell.descriptor systemToken .readable h with
    | .ok h =>
      (.ok { config, poller, table := Slab.empty 0 config.capacity, control, stopping := false },
        h)
    | .error e =>
      let h := h.note .destroyed
      (.error e, poller.close (control.bell.close h))

/-- The number of registrations. -/
def registered (s : System) : Nat := s.table.size

/-- Is a token registered? -/
def isRegistered (s : System) (token : Token) : Bool := s.table.contains token

/-- Takes a system down. What is left is its control channel, which may still have senders. -/
def retire (s : System) (h : Host) : Channel Command × Host :=
  let h := if s.table.isEmpty then h else h.note (.leftOver s.registered)
  let h := h.note .destroyed
  let control := s.control.abandon
  (control, s.poller.close (control.release h))

end System

/-- A system and the host it runs on. -/
structure Loop where
  /-- The operating system. -/
  host : Host
  /-- The system. -/
  system : System

namespace Loop

/-- Says something. -/
def note (l : Loop) (n : Notice) : Loop := { l with host := l.host.note n }

/-- Replaces the registrations. -/
def withTable (l : Loop) (table : Slab Registration) : Loop :=
  { l with system := { l.system with table := table } }

/-! ### Registration -/

/-- Registers a descriptor under a token. The entry is made before the multiplexer is asked
and taken back if it refuses. -/
def registerAt (l : Loop) (fd : Option Nat) (token : Token) (i : Interest) :
    Except Failure Unit × Loop :=
  if token = systemToken then (.error .reservedToken, l)
  else
    match l.system.table.insertAt token ⟨fd, i⟩ with
    | .error refusal => (.error (.table refusal), l)
    | .ok table =>
      match l.system.poller.add fd token i l.host with
      | .ok host => (.ok (), { (l.withTable table) with host := host })
      | .error e => (.error e, l.withTable (table.remove token).2)

/-- Registers a descriptor under the next token. -/
def register (l : Loop) (fd : Option Nat) (i : Interest) : Except Failure Token × Loop :=
  let token := l.system.table.vacantKey
  match l.registerAt fd token i with
  | (.ok (), l) => (.ok token, l)
  | (.error e, l) => (.error e, l)

/-- Changes what a registered descriptor is watched for. -/
def reregister (l : Loop) (token : Token) (i : Interest) : Except Failure Unit × Loop :=
  match l.system.table.get? token with
  | none => (.error (.os .reregister .noEntry), l)
  | some r =>
    match l.system.poller.modify r.descriptor token i l.host with
    | .ok host =>
      (.ok (), { (l.withTable (l.system.table.set token { r with interest := i })) with
        host := host })
    | .error e => (.error e, l)

/-- The multiplexer does not know the descriptor, or it is closed: it need not be told to
forget it. -/
def isForgotten (e : Failure) : Bool :=
  e.report.code = Errno.noEntry.code || e.report.code = Errno.badDescriptor.code

/-- Frees a token. It is free afterwards even if the multiplexer keeps the descriptor; a token
that is not registered is none of its business. -/
def deregister (l : Loop) (token : Token) : Except Failure Unit × Loop :=
  match l.system.table.remove token with
  | (none, _) => (.ok (), l)
  | (some r, table) =>
    let l := l.withTable table
    match l.system.poller.remove r.descriptor l.host with
    | .ok host => (.ok (), { l with host := host.note (.deregistered token) })
    | .error e =>
      if isForgotten e then (.ok (), l)
      else (.error e, l.note (.deregisterFailed token e))

/-! ### Control -/

/-- Sends a command from a sender that exists just for this. -/
def stop (l : Loop) : Except Failure Unit × Loop :=
  match l.system.control.attach.send .stop l.host with
  | .ok (control, host) =>
    (.ok (), { host := host, system := { l.system with control := control.detach } })
  | .error e =>
    (.error e, { l with system := { l.system with control := l.system.control.attach.detach } })

/-- Takes one command from the control channel. -/
def heed (l : Loop) : Loop :=
  match l.system.control.receive l.host with
  | .ok (.stop, control, host) =>
    { host := host.note .stopRequested
      system := { l.system with control := control, stopping := true } }
  | .error _ => l

/-- Takes every command from the control channel. -/
def drainControl (l : Loop) : Loop := l.system.control.queue.foldl (fun l _ => l.heed) l

end Loop

end EventLoop

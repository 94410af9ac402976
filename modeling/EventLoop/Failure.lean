import EventLoop.Errno
import EventLoop.Slab
import EventLoop.Utf8

/-!
# Failures

Why an operation of the loop, a channel, a table or a transport was refused, and the
report that is made of it.

## Main definitions

* `Failure` — the cause, one constructor for each.
* `Report` — the kind, wording and number under which a cause is reported.
* `Failure.report` — the report of a cause.
* `Report.describe` — the one-line form used in log lines.
-/

namespace EventLoop

/-! ### Reports -/

/-- The closed set of failure kinds, and whatever other number may stand in its place. -/
inductive Kind
  /-- The operating system or the multiplexer refused; the code is its number. -/
  | io
  /-- The other side of a channel is gone. -/
  | channelClosed
  /-- A receive that does not wait found nothing. -/
  | channelEmpty
  /-- The queue is at capacity. -/
  | channelFull
  /-- The text is no endpoint. -/
  | addressParse
  /-- The bytes are no UTF-8; the code is the offset. -/
  | utf8
  /-- A ceiling on entries was reached. -/
  | noCapacity
  /-- The token or the resource is registered already. -/
  | alreadyRegistered
  /-- No kind has this number. -/
  | unknown (number : Nat)
  deriving DecidableEq, Repr

namespace Kind

/-- The kinds in the order of their numbers. -/
def all : List Kind :=
  [.io, .channelClosed, .channelEmpty, .channelFull, .addressParse, .utf8, .noCapacity,
    .alreadyRegistered]

/-- The kind with a number. -/
def ofNat (n : Nat) : Kind := all[n]?.getD (.unknown n)

/-- The name of a kind. -/
def text : Kind → String
  | .io => "Io"
  | .channelClosed => "ChannelClosed"
  | .channelEmpty => "ChannelEmpty"
  | .channelFull => "ChannelFull"
  | .addressParse => "AddressParse"
  | .utf8 => "Utf8"
  | .noCapacity => "NoCapacity"
  | .alreadyRegistered => "AlreadyRegistered"
  | .unknown _ => "Unknown"

end Kind

/-- How a failure is reported. -/
structure Report where
  /-- Which kind of failure. -/
  kind : Kind
  /-- The wording, possibly empty. -/
  message : String
  /-- The number that goes with the kind. -/
  code : Int := 0
  /-- The receivers that refused a published value. -/
  receivers : List Nat := []
  deriving DecidableEq, Repr

namespace Report

/-- The report of an error number; the wording starts with what was attempted. -/
def ofErrno (e : Errno) (what : String) : Report where
  kind := .io
  message := what ++ ": " ++ e.text
  code := e.code

/-- The failure only means "not now". -/
def isWouldBlock (r : Report) : Bool :=
  match r.kind with
  | .channelEmpty | .channelFull => true
  | .io => Errno.isWouldBlock ⟨r.code⟩
  | _ => false

/-- Kind, wording and refusing receivers in one line. -/
def describe (r : Report) : String :=
  r.kind.text ++ (if r.message.isEmpty then "" else ": " ++ r.message) ++
    (if r.receivers.isEmpty then ""
     else " [receivers:" ++ String.join (r.receivers.map fun id => " " ++ toString id) ++ "]")

end Report

/-! ### Causes -/

/-- A call into the operating system that can fail. -/
inductive Call
  | openPoller | control | remove | wait | reregister
  | socket | pair | bind | listen | connect | accept
  | receive | send | shutdown | localName | peerName | pendingError | noDelay
  deriving DecidableEq, Repr

/-- What a failed call is called in the wording. -/
def Call.text : Call → String
  | .openPoller => "epoll_create1"
  | .control => "epoll_ctl"
  | .remove => "epoll_ctl(DEL)"
  | .wait => "epoll_wait"
  | .reregister => "reregister: unknown token"
  | .socket => "socket"
  | .pair => "socketpair"
  | .bind => "bind"
  | .listen => "listen"
  | .connect => "connect"
  | .accept => "accept"
  | .receive => "recv"
  | .send => "send"
  | .shutdown => "shutdown"
  | .localName => "getsockname"
  | .peerName => "getpeername"
  | .pendingError => "SO_ERROR"
  | .noDelay => "TCP_NODELAY"

/-- The cause of a refusal. -/
inductive Failure
  /-- A call failed with an error number. -/
  | os (call : Call) (errno : Errno)
  /-- A value was sent to a channel without a receiver. -/
  | receiverGone
  /-- A channel is empty and nobody can send to it. -/
  | sendersGone
  /-- A channel is empty. -/
  | signalEmpty
  /-- A channel is at capacity. -/
  | signalFull
  /-- These subscribers refused a published value. -/
  | subscribersFull (receivers : List Nat)
  /-- The text is no endpoint. -/
  | badEndpoint (text : String)
  /-- The path does not fit into a socket address. -/
  | badSocketPath (path : String)
  /-- The bytes are no UTF-8. -/
  | badText (defect : Utf8.Defect)
  /-- A table refused an entry. -/
  | table (refusal : Slab.Refusal)
  /-- The token is the loop's own. -/
  | reservedToken
  /-- The resource holds a token already. -/
  | alreadyRegistered
  deriving DecidableEq, Repr

namespace Failure

/-- The largest number a report carries as a code. -/
def largestCode : Nat := UInt32.size / 2 - 1

/-- How a cause is reported. -/
def report : Failure → Report
  | .os call errno => .ofErrno errno call.text
  | .receiverGone => { kind := .channelClosed, message := "receiver is gone" }
  | .sendersGone => { kind := .channelClosed, message := "all senders are gone" }
  | .signalEmpty => { kind := .channelEmpty, message := "signal is empty" }
  | .signalFull => { kind := .channelFull, message := "signal is full" }
  | .subscribersFull ids =>
    { kind := .channelFull, message := "subscriber queue is full", receivers := ids }
  | .badEndpoint text =>
    { kind := .addressParse, message := "invalid endpoint '" ++ text ++ "'" }
  | .badSocketPath path =>
    { kind := .addressParse, message := "invalid socket path '" ++ path ++ "'" }
  | .badText defect =>
    { kind := .utf8, message := defect.text, code := min defect.offset largestCode }
  | .table .full => { kind := .noCapacity, message := "slab is full" }
  | .table (.taken key) =>
    { kind := .alreadyRegistered, message := "key " ++ toString key ++ " is taken" }
  | .reservedToken =>
    { kind := .alreadyRegistered, message := "token is reserved by the system" }
  | .alreadyRegistered =>
    { kind := .alreadyRegistered, message := "resource is already registered" }

/-- The kind under which a cause is reported. -/
def kind (f : Failure) : Kind := f.report.kind

/-- The failure only means "not now". -/
def isWouldBlock (f : Failure) : Bool := f.report.isWouldBlock

/-- The one-line form of a cause. -/
def describe (f : Failure) : String := f.report.describe

/-- The failure is a table's or a registration's clash. -/
def isClash : Failure → Bool
  | .table (.taken _) | .reservedToken | .alreadyRegistered => true
  | _ => false

end Failure

end EventLoop

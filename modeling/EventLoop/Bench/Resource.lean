import EventLoop.Channel.Broadcast
import EventLoop.Net.Listener
import EventLoop.Producer
import EventLoop.Sessions

/-!
# Resources of a bench

What a bench can hold under a name.

## Main definitions

* `Resource` — the kinds of resource.
* `Resource.descriptor` — the descriptor through which a resource is watched.
-/

namespace EventLoop

/-- Something a bench holds under a name. -/
inductive Resource
  /-- A readiness flag. -/
  | notifier (n : Notifier)
  /-- A regular file. -/
  | file (descriptor : Option Nat)
  /-- A stream. -/
  | socket (s : Socket)
  /-- A listener. -/
  | listener (s : Listener)
  /-- A multiplexer of its own. -/
  | poller (p : Poller)
  /-- The receiving end of a channel. -/
  | receiver (r : Receiver)
  /-- A sending end of the channel with this number. -/
  | sender (channel : Nat)
  /-- A broadcast; copies share one list of subscribers. -/
  | bus (key : Nat)
  /-- A broadcast as a stage. -/
  | publisher (key : Nat)
  /-- A sending end of the control channel with this number. -/
  | handle (channel : Nat)
  /-- A flag with a registration of its own. -/
  | eventedNotifier (e : Evented Notifier)
  /-- A stream with a registration of its own. -/
  | eventedSocket (e : Evented Socket)
  /-- A stream as a stage. -/
  | stream (e : Evented Socket)
  /-- A generator. -/
  | generator (g : Generator Int64)
  /-- A producer of a single value. -/
  | mono (m : Mono Int64)
  /-- The receiving end of a channel as a stage. -/
  | signal (e : Evented Receiver)
  /-- A listener as a stage. -/
  | acceptor (e : Evented Listener)
  /-- A table of plain sessions. -/
  | texts (s : Sessions String)
  /-- A table of streams. -/
  | streams (s : Sessions (Evented Socket))

namespace Resource

/-- The descriptor through which a resource is watched. -/
def descriptor : Resource → Option Nat
  | .notifier n => n.descriptor
  | .file fd => fd
  | .socket s => s.descriptor
  | .listener s => s.descriptor
  | .poller p => p.descriptor
  | .receiver r => r.bell.descriptor
  | .eventedNotifier e => e.inner.descriptor
  | .eventedSocket e => e.inner.descriptor
  | .stream e => e.inner.descriptor
  | .generator g => g.evented.inner.descriptor
  | .mono m => m.evented.inner.descriptor
  | .signal e => e.inner.bell.descriptor
  | .acceptor e => e.inner.descriptor
  | .sender _ | .bus _ | .publisher _ | .handle _ | .texts _ | .streams _ => none

/-- The broadcast a resource is a copy of. -/
def broadcast? : Resource → Option Nat
  | .bus key | .publisher key => some key
  | _ => none

/-- The channel a resource receives from. -/
def channel? : Resource → Option Nat
  | .receiver r => some r.channel
  | .signal e => some e.inner.channel
  | _ => none

/-- The stream behind a resource. -/
def socket? : Resource → Option Socket
  | .socket s => some s
  | .eventedSocket e | .stream e => some e.inner
  | _ => none

end Resource

end EventLoop

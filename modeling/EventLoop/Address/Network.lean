import EventLoop.Address.Scope
import EventLoop.Errno

/-!
# Networks

What a host knows of the network, and what becomes of connections that leave it. All this is
the choice of whoever runs the host.

## Main definitions

* `Network` — which addresses can be bound, and where connections lead to.
* `Scope.bindFault`, `Scope.dialFault` — why an address cannot be bound or connected to on a
  host without a network.
* `Network.none` — that host: no address is configured and no route leads anywhere.
-/

namespace EventLoop

/-- What a host knows of the network. -/
structure Network where
  /-- Why an address cannot be bound, if so. -/
  bindFault : Address → Option Errno
  /-- Why a connection to an address is not even tried, if so. -/
  dialFault : Address → Option Errno
  /-- The address that connections to an address come from. -/
  source : Address → Address
  /-- Does an address lead back to the host itself? -/
  isOwn : Address → Bool
  /-- What a connection to another host fails with in the end, if nobody answers there. -/
  outcome : SocketAddress → Option Errno

namespace Scope

/-- Why an address of this scope cannot be bound, if so. Every IPv4 address can, since there is
no list of addresses to look it up in. -/
def bindFault : Scope → Option Errno
  | .quad _ | .unspecified => none
  | .multicast | .linkLocal => some .invalid
  | .elsewhere => some .addressNotAvailable

/-- Why no connection to an address of this scope is tried. -/
def dialFault : Scope → Errno
  | .quad _ | .multicast => .networkUnreachable
  | .linkLocal => .invalid
  | .unspecified | .elsewhere => .addressNotAvailable

end Scope

/-- No network: there are no connections, not even to the host itself. -/
def Network.none : Network where
  bindFault a := a.scope.bindFault
  dialFault a := some a.scope.dialFault
  source a := a
  isOwn _ := true
  outcome _ := some .networkUnreachable

end EventLoop

import EventLoop.Host.Sockets

/-!
# Connections over the network

Listeners for connections over the network, and connections to them and to other hosts.

## Main definitions

* `Host.freePort` — a port for a socket whose user did not choose one.
* `Host.serve` — a listener.
* `Host.serverAt` — the listener that a connection to an address of the host is for.
* `Host.dial` — a connection. It is there at once, but if nobody answers it is broken: this is
  only found out when it is used.

A connection is taken to be as fast and reliable as one within the host, so what one side does
is known to the other right away.
-/

namespace EventLoop

namespace Host

/-! ### Ports -/

/-- Has some socket been given this port? -/
def hasPort (h : Host) (port : UInt16) : Bool :=
  let isAt : Binding → Bool
    | .address s => s.port == port
    | _ => false
  (h.descriptors.any fun
    | some (.listener bound _) => isAt bound
    | _ => false) || h.ends.any fun e => isAt e.name

/-- The ports for sockets whose users do not choose one. -/
def ephemeralPorts : List UInt16 := (List.range' 32768 28232).map UInt16.ofNat

/-- The first of them that no socket has been given. -/
def freePort (h : Host) : Option UInt16 := ephemeralPorts.find? fun port => !h.hasPort port

/-! ### Listeners -/

/-- Does a listener of the host stand in the way of another one? -/
def isServed (h : Host) (s : SocketAddress) : Bool :=
  h.descriptors.any fun
    | some (.listener (.address t) _) => t.port == s.port && t.address.overlaps s.address
    | _ => false

/-- The address that a listener gets. Port zero stands for any port that is free. -/
def vacantAddress (h : Host) (s : SocketAddress) : Except Errno SocketAddress :=
  match h.network.bindFault s.address with
  | some e => .error e
  | none =>
    if s.port = 0 then
      match h.freePort with
      | some port => .ok { s with port := port }
      | none => .error .addressInUse
    else if h.isServed s then .error .addressInUse
    else .ok s

/-- Binds a listener to a network address. -/
def serve (h : Host) (s : SocketAddress) : Except SocketFault (Nat × Host) :=
  if !h.allows 1 then .error (.socket .tooManyOpen)
  else
    match h.vacantAddress s with
    | .error e => .error (.refused e)
    | .ok s => (h.allocate (.listener (.address s) [])).mapError .socket

/-- The listener that a connection to an address of the host is for, with its backlog. -/
def serverAt (h : Host) (s : SocketAddress) : Option (Nat × SocketAddress × List Nat) :=
  h.descriptors.toList.zipIdx.findSome? fun
    | (some (.listener (.address t) backlog), fd) =>
      if t.port = s.port ∧ t.address.covers s.address then some (fd, t, backlog) else none
    | _ => none

/-! ### Connections -/

/-- The two ends of a connection to an address: where it comes from, and where it gets to.
Whoever connects to no address in particular gets to the host itself. -/
def route (h : Host) (target : SocketAddress) : Except Errno (SocketAddress × SocketAddress) :=
  match h.network.dialFault target.address with
  | some e => .error e
  | none =>
    match h.freePort with
    | none => .error .addressNotAvailable
    | some port =>
      let source := h.network.source target.address
      .ok (⟨source, port⟩,
        { target with address := if target.address.isUnspecified then source else target.address })

/-- Nobody answered: the end that is there is broken, and there is no other. -/
def breakOff (h : Host) (near far : Nat) (e : Errno) : Host :=
  (h.modifyEnd far fun p => { p with name := .nowhere }).modifyEnd near fun p =>
    { p with sendShut := true, receiveShut := true, fault := some e }

/-- A connection to an address of the host waits in the backlog of a listener, if there is one.
The other end of one to another host is there if somebody answers. -/
def offer (h : Host) (s : SocketAddress) (near far : Nat) : Host :=
  if h.network.isOwn s.address then
    match h.serverAt s with
    | some (fd, t, backlog) => h.setObject fd (.listener (.address t) (backlog ++ [far]))
    | none => h.breakOff near far .connectionRefused
  else
    match h.network.outcome s with
    | some e => h.breakOff near far e
    | none => h

/-- Connects to a network address. -/
def dial (h : Host) (target : SocketAddress) : Except SocketFault (Nat × Host) :=
  if !h.allows 1 then .error (.socket .tooManyOpen)
  else
    match h.route target with
    | .error e => .error (.refused e)
    | .ok (own, reached) =>
      let ((far, near), h) := h.connectEnds (.address reached) (.address own)
      ((h.offer reached near far).allocate (.stream near)).mapError .socket

end Host

end EventLoop

import EventLoop.Bench.React
import EventLoop.Bench.Streams

/-!
# Operations on listeners and connections

## Main definitions

* `Op.bindTcp`, `Op.bindUnix`, `Op.makeAcceptor`, `Op.moveListener` — listeners.
* `Op.connectTcp`, `Op.connectUnix`, `Op.accept`, `Op.acceptTurn` — connections.
* `Op.describeListener`, `Op.peerName`, `Op.localName`, `Op.areConnected` — names.

Names of network endpoints are given without the port.
-/

namespace EventLoop

namespace Op

/-! ### Listeners -/

/-- Binds a listener to a network endpoint. -/
def bindTcp (name endpoint : String) : Op (Except Failure Unit) := do
  match ← onHost (Listener.bindTcp endpoint) with
  | .ok s =>
    place name (.listener s)
    return .ok ()
  | .error e => return .error e

/-- Binds a listener to a path. -/
def bindUnix (name path : String) : Op (Except Failure Unit) := do
  match ← onHost (Listener.bindUnix path) with
  | .ok s =>
    place name (.listener s)
    return .ok ()
  | .error e => return .error e

/-- A plain listener. -/
def listenerNamed (name : String) : Op Listener := part name fun
  | .listener s => some s
  | _ => none

/-- A listener that is a stage. -/
def acceptorNamed (name : String) : Op (Evented Listener) := part name fun
  | .acceptor e => some e
  | _ => none

/-- Makes a registered stage of a listener, under a chosen token or the next one; if that
fails the listener goes. -/
def makeAcceptor (name source : String) (token : Option Token) :
    Op (Except Failure (Option Token)) := do
  needSystem
  let s ← listenerNamed source
  modify (·.forget source)
  let (r, e) ← onLoop fun l =>
    let e := Evented.new s .readable
    let (r, e, l) := token.elim (e.register l) fun token => e.registerAt token l
    ((r, e), l)
  match r with
  | .ok () => place name (.acceptor e)
  | .error _ => modify (·.discard (.acceptor e))
  return r.map fun () => e.token

/-- Moves a listener to the place of another, which goes: their paths afterwards. -/
def moveListener (source target : String) : Op (String × String) := do
  let s ← listenerNamed source
  let t ← listenerNamed target
  if source = target then return (s.path, s.path)
  else
    let (moved, rest) ← onHost fun h =>
      let (moved, rest, h) := t.assign s h
      ((moved, rest), h)
    modify fun r => (r.put source (.listener rest)).put target (.listener moved)
    return (rest.path, moved.path)

/-- What can be seen of a listener. -/
inductive ListenerView
  /-- The endpoint of a network listener. -/
  | endpoint (name : Except Failure String)
  /-- The path of a listener over a path. -/
  | path (path : String)
  /-- The endpoint of a network listener that is a stage, and its token. -/
  | endpointAt (name : Except Failure String) (token : Option Token)
  /-- The path of a listener that is a stage, and its token. -/
  | pathAt (path : String) (token : Option Token)

/-- What can be seen of a listener. -/
def describeListener (name : String) : Op ListenerView := do
  let h := (← get).host
  match ← resource name with
  | .listener s =>
    match s.family with
    | .tcp => return .endpoint ((s.localName h).map maskPort)
    | .unix => return .path s.path
  | .acceptor e =>
    match e.inner.family with
    | .tcp => return .endpointAt ((e.inner.localName h).map maskPort) e.token
    | .unix => return .pathAt e.inner.path e.token
  | _ => throw (.resource name)

/-! ### Connections -/

/-- Where to connect to. -/
inductive Destination
  /-- An endpoint. -/
  | endpoint (text : String)
  /-- The address of a listener. -/
  | listener (name : String)
  /-- The address of a listener that is a stage. -/
  | acceptor (name : String)
  /-- A port of this host at which nobody listens. -/
  | nobody

/-- The endpoint of a destination. -/
def endpointOf : Destination → Op String
  | .endpoint text => return text
  | .listener name => do
    return ((← listenerNamed name).localName (← get).host).toOption.getD ""
  | .acceptor name => do
    return ((← acceptorNamed name).inner.localName (← get).host).toOption.getD ""
  | .nobody => return "127.0.0.1:1"

/-- Connects over the network. -/
def connectTcp (name : String) (d : Destination) : Op (Except Failure Unit) := do
  let endpoint ← endpointOf d
  match ← onHost (Socket.connectTcp endpoint) with
  | .ok s =>
    place name (.socket s)
    return .ok ()
  | .error e => return .error e

/-- Connects to the listener at a path. -/
def connectUnix (name path : String) : Op (Except Failure Unit) := do
  match Socket.connectUnix path (← get).host with
  | .error e => return .error e
  | .ok (s, h) =>
    modify (·.withHost h)
    place name (.socket s)
    return .ok ()

/-- Takes the oldest pending connection of a listener; gives the name of its peer. -/
def accept (listener name : String) : Op (Except Failure String) := do
  let s ← listenerNamed listener
  match ← onHost s.accept with
  | .ok c =>
    place name (.socket c.socket)
    return .ok (maskPort c.peer)
  | .error e => return .error e

/-- One turn of a listener that is a stage: an accepted stream is kept, and the name of its
peer comes out. -/
def acceptTurn (name : String) (input : Reaction Unit) : Op (Reaction String) := do
  let e ← acceptorNamed name
  let (out, e) ← onLoop fun l =>
    let (out, e, l) := e.listen input l
    ((out, e), l)
  modify (·.put name (.acceptor e))
  match out with
  | .value c => return .value (← adoptConnection c)
  | other => return other.pass

/-! ### Names -/

/-- The name of the other end of a plain stream. -/
def peerName (name : String) : Op (Except Failure String) := do
  let s ← socketNamed name
  return (s.peerName (← get).host).map maskPort

/-- The name of this end of a plain stream. -/
def localName (name : String) : Op (Except Failure String) := do
  let s ← socketNamed name
  return (s.localName (← get).host).map maskPort

/-- Do two plain streams name each other: is the name of the first the peer of the second,
and the other way round? -/
def areConnected (first second : String) : Op (Bool × Bool) := do
  let a ← socketNamed first
  let b ← socketNamed second
  let h := (← get).host
  let agree (s t : Except Failure String) : Bool :=
    match s, t with
    | .ok s, .ok t => s == t
    | _, _ => false
  return (agree (a.localName h) (b.peerName h), agree (b.localName h) (a.peerName h))

/-- A stream without a descriptor: the code of its pending error, and whether it has a name
and a peer. -/
def hollowNames : Int × Bool × Bool :=
  let s : Socket := ⟨.tcp, none⟩
  let h : Host := .initial .silent
  let code := match s.takeError with
    | .ok () => 0
    | .error e => e.report.code
  (code, (s.localName h).isOk, (s.peerName h).isOk)

end Op

end EventLoop

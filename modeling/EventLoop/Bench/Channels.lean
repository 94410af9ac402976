import EventLoop.Bench.Descriptors

/-!
# Operations on channels and broadcasts

## Main definitions

* `Op.openReceiver`, `Op.openSender`, `Op.copySender`, … — the ends come and go.
* `Op.send`, `Op.receive` — a value goes in or comes out.
* `Op.handOver`, `Op.outlast` — a receive waits elsewhere while something happens here.
* `Op.openBus`, `Op.copyBus`, `Op.subscribe`, `Op.publish` — broadcasts.
-/

namespace EventLoop

/-- What can be seen of a receiving end: how many values wait, and whether its bell rings. -/
abbrev Backlog := Nat × Bool

namespace Op

/-! ### Ends -/

/-- The channel that a resource receives from. -/
def channelInto (name : String) : Op Nat := part name Resource.channel?

/-- The channel that a resource sends to. -/
def channelFrom (name : String) : Op Nat := part name fun
  | .sender id => some id
  | _ => none

/-- What can be seen of the receiving end of a channel. -/
def backlog (id : Nat) : Op Backlog := do
  let r ← get
  match r.bench.channels.get? id with
  | some c => return (c.queue.length, c.bell.isSet r.host)
  | none => return (0, false)

/-- Makes a channel with its receiving end. -/
def openReceiver (name : String) (capacity : Capacity) : Op Nat := do
  let receiver ← onChannels fun t h =>
    let (c, h) := Channel.create capacity h
    (c.receiver, t.add c, h)
  place name (.receiver receiver)
  return receiver.channel

/-- A plain receiving end. -/
def receiverNamed (name : String) : Op Receiver := part name fun
  | .receiver r => some r
  | _ => none

/-- Number, capacity and backlog of a channel. -/
def describeReceiver (name : String) : Op (Nat × Capacity × Backlog) := do
  let id ← channelInto name
  match (← get).bench.channels.get? id with
  | some c => return (id, c.capacity, ← backlog id)
  | none => throw (.resource name)

/-- Moves a receiving end to the place of another, which goes. -/
def moveReceiver (source target : String) : Op Backlog := do
  let moved ← receiverNamed source
  let _ ← receiverNamed target
  if source != target then
    modify (·.forget source)
    place target (.receiver moved)
  backlog moved.channel

/-- A sender comes. -/
def attach (id : Nat) : Op Unit :=
  onChannels fun t h => ((), t.modify id Channel.attach h)

/-- Makes a sending end of the channel a resource receives from. -/
def openSender (name source : String) : Op Nat := do
  let id ← channelInto source
  attach id
  place name (.sender id)
  return id

/-- Makes a copy of a sending end. -/
def copySender (name source : String) : Op Unit := do
  let id ← channelFrom source
  attach id
  place name (.sender id)

/-- Puts a copy of a sending end in the place of another, which goes. -/
def assignSender (source target : String) : Op Nat := do
  let id ← channelFrom source
  let _ ← channelFrom target
  if source != target then
    attach id
    place target (.sender id)
  return id

/-- Moves a sending end to the place of another, which goes. -/
def moveSender (source target : String) : Op Nat := do
  let id ← channelFrom source
  let _ ← channelFrom target
  if source != target then
    modify (·.forget source)
    place target (.sender id)
  return id

/-! ### Values -/

/-- Sends values one after the other. -/
def send (name : String) (values : List Int64) : Op (List (Except Failure Unit)) := do
  let id ← channelFrom name
  values.mapM fun v => onChannels fun t h => t.send id v h

/-- Is the receiver of a sending end gone? -/
def isAbandoned (name : String) : Op Bool := do
  let id ← channelFrom name
  match (← get).bench.channels.get? id with
  | some c => return !c.hasReceiver
  | none => return true

/-- Receives a value without waiting. -/
def receive (name : String) : Op (Except Failure Int64 × Backlog) := do
  let id ← channelInto name
  let r ← onChannels fun t h => t.receive id h
  return (r, ← backlog id)

/-- A receive starts to wait. -/
def park (id : Nat) : Op Unit := onChannels fun t h => ((), t.modify id Channel.park h)

/-- A receive stops waiting. -/
def resume (id : Nat) : Op (Except Failure Int64) := onChannels fun t h =>
  match t.get? id with
  | none => (.error .sendersGone, t, h)
  | some c =>
    let (r, c, h) := c.resume h
    (r, t.set id c, h)

/-- Need a parked receive wait no longer? -/
def canResume (id : Nat) : Op Bool := do
  match (← get).bench.channels.get? id with
  | some c => return c.canResume
  | none => return true

/-- Receives a value, or stops waiting for one. -/
def receiveWaiting (name : String) : Op (Except Failure Int64 × Backlog) := do
  let id ← channelInto name
  park id
  let r ← resume id
  return (r, ← backlog id)

/-- What came of a value handed over. -/
structure HandOver where
  /-- Was the value sent? -/
  sent : Bool
  /-- What came of a second value. -/
  again : Option (Except Failure Unit)
  /-- What was received. -/
  got : Except Failure Int64
  /-- The receiving end afterwards. -/
  backlog : Backlog

/-- Hands a value over to a receive that waits elsewhere, and offers it a second one. A
receive that need not wait takes its value before. -/
def handOver (receiver sender : String) (v : Int64) (again : Option Int64) : Op HandOver := do
  let id ← channelInto receiver
  let _ ← channelFrom sender
  park id
  let early ← if ← canResume id then some <$> resume id else pure none
  let sent ← send sender [v]
  let second ← match again with
    | some w => pure (← send sender [w]).head?
    | none => pure none
  let got ← match early with
    | some got => pure got
    | none => resume id
  return ⟨sent.all (·.isOk), second, got, ← backlog id⟩

/-- Drops a sending end while a receive waits elsewhere. -/
def outlast (receiver sender : String) : Op (Except Failure Int64 × Backlog) := do
  let id ← channelInto receiver
  let _ ← channelFrom sender
  park id
  modify (·.drop sender)
  let r ← resume id
  return (r, ← backlog id)

/-! ### Broadcasts -/

/-- The broadcast a resource is a copy of. -/
def busNamed (name : String) : Op (Nat × Broadcast) := do
  let key ← part name Resource.broadcast?
  match (← get).bus? key with
  | some b => return (key, b)
  | none => throw (.resource name)

/-- Makes a broadcast. -/
def openBus (name : String) (capacity : Capacity) : Op Unit := do
  let key := (← get).bench.busCount
  modify fun r => { r with bench := { r.bench with
    busCount := key + 1
    buses := r.bench.buses ++ [(key, .new capacity)] } }
  place name (.bus key)

/-- Makes a copy of a broadcast. -/
def copyBus (name source : String) : Op Unit := do
  place name (.bus (← busNamed source).1)

/-- Makes a stage that publishes through a copy of a broadcast. -/
def openPublisher (name source : String) : Op Unit := do
  place name (.publisher (← busNamed source).1)

/-- Subscribes to a broadcast. -/
def subscribe (bus name : String) : Op Nat := do
  let (key, b) ← busNamed bus
  let (receiver, b) ← onChannels fun t h =>
    let (receiver, b, t, h) := b.subscribe t h
    ((receiver, b), t, h)
  modify (·.putBus key b)
  place name (.receiver receiver)
  return receiver.channel

/-- How many subscribers has a broadcast? -/
def subscribers (bus : String) : Op Nat := return (← busNamed bus).2.subscribers.length

/-- Gives every subscriber a value. -/
def publish (bus : String) (v : Int64) : Op (Except Failure Unit × Nat) := do
  let (key, b) ← busNamed bus
  let (r, b) ← onChannels fun t h =>
    let (r, b, t, h) := b.publish v t h
    ((r, b), t, h)
  modify (·.putBus key b)
  return (r, b.subscribers.length)

end Op

end EventLoop

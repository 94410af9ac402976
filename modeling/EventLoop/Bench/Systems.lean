import EventLoop.Bench.Descriptors

/-!
# Operations on the system

## Main definitions

* `Op.openSystem`, `Op.dropSystem`, `Op.visitSystem` — the system comes and goes.
* `Op.register`, `Op.registerAt`, `Op.reregister`, `Op.deregister` — registrations.
* `Op.stop`, `Op.keepHandle`, `Op.stopThrough` — ways to tell the loop to stop.
* `Op.script` — what scripted multiplexers will answer.
-/

namespace EventLoop

namespace Op

/-! ### Coming and going -/

/-- Makes the system. -/
def openSystem (config : Config) : Op (Except Failure Config) := modifyGet fun r =>
  let r := r.dropSystem
  match System.init config r.host with
  | (.ok s, h) =>
    (.ok config, { bench := { r.bench with isUp := true }, loop := ⟨h, s⟩ })
  | (.error e, h) => (.error e, r.withHost h)

/-- Takes the system down. -/
def dropSystem : Op Unit := modify (·.dropSystem)

/-- Makes a system elsewhere and takes it down at once; could it be made? -/
def visitSystem : Op Bool := onHost fun h =>
  match System.init (.standard .live) h with
  | (.ok s, h) => (true, (s.retire h).2)
  | (.error _, h) => (false, h)

/-- Queues answers of scripted multiplexers; how many are queued? -/
def script (outcomes : List Outcome) : Op Nat := onHost fun h =>
  let script := h.script ++ outcomes
  (script.length, { h with script := script })

/-! ### Registrations -/

/-- The number of registrations, if there is a system. -/
def registered? : Op (Option Nat) := return (← get).registered?

/-- The descriptor of a resource, or none without a name. -/
def descriptorOf (name : Option String) : Op (Option Nat) := do
  match name with
  | some name => return (← resource name).descriptor
  | none => return none

/-- Registers under the next token. -/
def register (name : Option String) (i : Interest) : Op (Except Failure Token) := do
  needSystem
  let fd ← descriptorOf name
  onLoop fun l => l.register fd i

/-- Registers under a chosen token. -/
def registerAt (name : Option String) (token : Token) (i : Interest) :
    Op (Except Failure Unit) := do
  needSystem
  let fd ← descriptorOf name
  onLoop fun l => l.registerAt fd token i

/-- Changes what a token is watched for. -/
def reregister (token : Token) (i : Interest) : Op (Except Failure Unit) := do
  needSystem
  onLoop fun l => l.reregister token i

/-- Frees a token. -/
def deregister (token : Token) : Op (Except Failure Unit) := do
  needSystem
  onLoop fun l => l.deregister token

/-- Which of these tokens are registered? -/
def areRegistered (tokens : List Token) : Op (List Bool) := do
  needSystem
  return tokens.map (← get).loop.system.isRegistered

/-! ### Stopping -/

/-- Tells the loop to stop. -/
def stop : Op (Except Failure Unit) := do
  needSystem
  onLoop Loop.stop

/-- Was the loop told to stop? -/
def isStopping : Op Bool := do
  needSystem
  return (← get).loop.system.stopping

/-- Keeps a sending end of the control channel. -/
def keepHandle (name : String) : Op Unit := do
  needSystem
  let c := (← get).loop.system.control
  modify (·.putControl c.id c.attach)
  place name (.handle c.id)

/-- Tells the loop to stop through a kept handle; is the loop gone? -/
def stopThrough (name : String) : Op (Except Failure Unit × Bool) := do
  let id ← part name fun
    | .handle id => some id
    | _ => none
  match (← get).control? id with
  | none => return (.error .receiverGone, true)
  | some c =>
    match c.send .stop (← get).host with
    | .ok (c, h) =>
      modify fun r => (r.withHost h).putControl id c
      return (.ok (), !c.hasReceiver)
    | .error e => return (.error e, !c.hasReceiver)

end Op

end EventLoop

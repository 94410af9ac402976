import EventLoop.Bench.Pollers
import EventLoop.Net.Stream

/-!
# Operations on streams and other resources with a registration

## Main definitions

* `Op.openPair`, `Op.openHollow`, `Op.makeEvented`, `Op.makeStream` — how they come about.
* `Spot` — where such a resource is: under a name, or in a table of streams.
* `Standing` — what can be seen of a registration from outside.
* `Op.act`, `Op.actStream` — one operation on what is at a spot, and its standing afterwards.
* `Op.enroll` — what is at a spot is registered.
* `Op.moveEvented`, `Op.assignEvented` — a resource moves to another place.
* `Op.onSocket` — one operation on a plain stream.
-/

namespace EventLoop

/-- What can be seen of a registration. -/
structure Standing where
  /-- The token, if there is one. -/
  token : Option Token
  /-- Readable, as far as is known. -/
  readable : Bool
  /-- Writable, as far as is known. -/
  writable : Bool
  /-- The interest in effect. -/
  interest : Interest
  deriving DecidableEq, Repr

/-- What can be seen of the registration of a resource. -/
def Evented.standing {ι : Type} (e : Evented ι) : Standing :=
  ⟨e.token, e.readable, e.writable, e.effective⟩

/-- Where a resource with a registration is. -/
inductive Spot
  /-- Under a name. -/
  | named (name : String)
  /-- A stream in a table. -/
  | session (table : String) (token : Token)

/-- An operation on a resource of any kind. -/
abbrev AnyAction (α : Type) :=
  ∀ {ι : Type} [Pollable ι], Evented ι → Loop → α × Evented ι × Loop

/-- An operation on a stream. -/
abbrev StreamAction (α : Type) := Evented Socket → Loop → α × Evented Socket × Loop

namespace Op

/-! ### Coming about -/

/-- A plain stream. -/
def socketNamed (name : String) : Op Socket := part name fun
  | .socket s => some s
  | _ => none

/-- Opens two connected streams. -/
def openPair (first second : String) : Op (Except Failure Unit) := do
  match Socket.pair (← get).host with
  | .error e => return .error e
  | .ok ((a, b), h) =>
    modify (·.withHost h)
    place first (.socket a)
    place second (.socket b)
    return .ok ()

/-- Makes a stream without a descriptor. -/
def openHollow (name : String) (family : Family) : Op Unit :=
  place name (.socket ⟨family, none⟩)

/-- Gives a flag or a stream a registration of its own. -/
def makeEvented (name source : String) (i : Interest) : Op Unit := do
  let x ← part source fun
    | .notifier n => some (.eventedNotifier (.new n i))
    | .socket s => some (.eventedSocket (.new s i))
    | _ => none
  modify (·.forget source)
  place name x

/-- Makes a stage of a stream. It is not registered. -/
def makeStream (name source : String) (i : Interest) : Op Unit := do
  let s ← socketNamed source
  modify (·.forget source)
  place name (.stream (.new s i))

/-- Makes a registered stage of a stream; if that fails the stream goes. -/
def createStream (name source : String) (i : Interest) : Op (Except Failure Unit) := do
  needSystem
  let s ← socketNamed source
  modify (·.forget source)
  let (r, e) ← onLoop fun l =>
    let (r, e, l) := (Evented.new s i).register l
    ((r, e), l)
  match r with
  | .ok () => place name (.stream e)
  | .error _ => modify (·.discard (.stream e))
  return r

/-! ### Operations at a spot -/

/-- The table of streams with a name. -/
def streamTable (name : String) : Op (Sessions (Evented Socket)) := part name fun
  | .streams s => some s
  | _ => none

/-- Operates on a stream in a table, if it is there. -/
def actInTable {α : Type} (table : String) (token : Token) (f : StreamAction α) :
    Op (Option (α × Standing)) := do
  let s ← streamTable table
  match s.slab.get? token with
  | none => return none
  | some e =>
    let (a, e) ← onLoop fun l =>
      let (a, e, l) := f e l
      ((a, e), l)
    modify (·.put table (.streams ⟨s.slab.set token e⟩))
    return some (a, e.standing)

/-- Operates on a named resource and puts it back. -/
def actAndPut {α ι : Type} (name : String) (wrap : Evented ι → Resource) (e : Evented ι)
    (f : Evented ι → Loop → α × Evented ι × Loop) : Op (Option (α × Standing)) := do
  let (a, e) ← onLoop fun l =>
    let (a, e, l) := f e l
    ((a, e), l)
  modify (·.put name (wrap e))
  return some (a, e.standing)

/-- Operates on what is at a spot; none if a table has no such stream. -/
def act {α : Type} (spot : Spot) (f : AnyAction α) : Op (Option (α × Standing)) := do
  match spot with
  | .session table token => actInTable table token f
  | .named name =>
    match ← resource name with
    | .eventedNotifier e => actAndPut name .eventedNotifier e f
    | .eventedSocket e => actAndPut name .eventedSocket e f
    | .stream e => actAndPut name .stream e f
    | _ => throw (.resource name)

/-- Operates on the stream at a spot; none if a table has no such stream. -/
def actStream {α : Type} (spot : Spot) (f : StreamAction α) : Op (Option (α × Standing)) := do
  match spot with
  | .session table token => actInTable table token f
  | .named name =>
    match ← resource name with
    | .eventedSocket e => actAndPut name .eventedSocket e f
    | .stream e => actAndPut name .stream e f
    | _ => throw (.resource name)

/-- Registers what is at a spot, under a chosen token or the next one. -/
def enroll (spot : Spot) (token : Option Token) :
    Op (Option (Except Failure Unit × Standing)) := do
  match ← act spot fun e l => ((), e, l) with
  | none => return none
  | some _ =>
    needSystem
    match token with
    | some t => act spot fun e l => e.registerAt t l
    | none => act spot fun e l => e.register l

/-- Closes the sending direction of the stream behind a registration. -/
def shutSend : StreamAction (Except Failure Unit) := fun e l =>
  let (r, h) := e.inner.shutSend l.host
  (r, e, { l with host := h })

/-! ### Moving -/

/-- What can be seen of the registration of a resource of either kind. -/
def standingOf : Resource → Option Standing
  | .eventedNotifier e => some e.standing
  | .eventedSocket e | .stream e => some e.standing
  | _ => none

/-- What moves to a new place, and what is left at the old one. -/
def split : Resource → Option (Resource × Resource)
  | .eventedNotifier e => some (.eventedNotifier e.moveOut.1, .eventedNotifier e.moveOut.2)
  | .eventedSocket e => some (.eventedSocket e.moveOut.1, .eventedSocket e.moveOut.2)
  | .stream e => some (.stream e.moveOut.1, .stream e.moveOut.2)
  | _ => none

/-- The standings of two resources. -/
def standings (first second : String) : Op (Standing × Standing) := do
  return (← part first standingOf, ← part second standingOf)

/-- Moves a resource to a new place: the standings at the old place and at the new one. -/
def moveEvented (source target : String) : Op (Standing × Standing) := do
  let (moved, rest) ← part source split
  modify (·.put source rest)
  place target moved
  standings source target

/-- Moves a resource to the place of another of its kind, which goes. -/
def assignEvented (source target : String) : Op (Standing × Standing) := do
  if source = target then standings source target
  else
    match ← resource source, ← resource target with
    | .eventedNotifier s, .eventedNotifier t =>
      let (moved, rest) ← onLoop fun l =>
        let (moved, rest, l) := t.assign s l
        ((moved, rest), l)
      modify fun r => (r.put source (.eventedNotifier rest)).put target (.eventedNotifier moved)
    | .eventedSocket s, .eventedSocket t =>
      let (moved, rest) ← onLoop fun l =>
        let (moved, rest, l) := t.assign s l
        ((moved, rest), l)
      modify fun r => (r.put source (.eventedSocket rest)).put target (.eventedSocket moved)
    | .stream s, .stream t =>
      let (moved, rest) ← onLoop fun l =>
        let (moved, rest, l) := t.assign s l
        ((moved, rest), l)
      modify fun r => (r.put source (.stream rest)).put target (.stream moved)
    | _, _ => throw (.resource source)
    standings source target

/-! ### Plain streams -/

/-- Operates on a plain stream. -/
def onSocket {α : Type} (name : String) (f : Socket → Host → α × Host) : Op α := do
  let s ← socketNamed name
  onHost (f s)

end Op

/-- The pending error of a stream, as long as nothing can have gone wrong with it: a bench has no
network. -/
def Socket.takeError (s : Socket) : Except Failure Unit :=
  if s.descriptor.isNone then .error (.os .pendingError .badDescriptor) else .ok ()

end EventLoop

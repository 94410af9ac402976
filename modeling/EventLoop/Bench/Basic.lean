import EventLoop.Bench.Leaf
import EventLoop.System.Run

/-!
# The bench

A host, at most one system, and named resources, on which one operation is carried out at a
time. Trees on a bench refer to its resources by name.

## Main definitions

* `Bench` — the named resources and trees, the channels and broadcasts behind them, and what
  the probes recorded.
* `Rig` — a bench with its loop; `Act` is a step on it.
* `Missing`, `Op` — an operation can fail because something it names is not there.
* `Rig.discard` — what happens to a resource that goes.
* `Rig.place`, `Rig.plant` — a resource or a tree comes; both share one set of names.
* `Rig.tearDown` — everything goes: first the trees, then the resources, the greatest
  name first, then the system.
-/

namespace EventLoop

/-- The named resources and trees of a bench, and what is behind them. -/
structure Bench where
  /-- The resources. -/
  resources : List (String × Resource)
  /-- The trees. -/
  roots : List (String × Root)
  /-- The channels of numbers. -/
  channels : Channels Int64
  /-- Control channels whose system is gone. -/
  controls : List (Nat × Channel Command)
  /-- The broadcasts. -/
  buses : List (Nat × Broadcast)
  /-- How many broadcasts were ever made. -/
  busCount : Nat
  /-- How many streams were accepted by trees. -/
  adopted : Nat
  /-- What probes and functions recorded, latest first. -/
  records : List Record
  /-- Is there a system? -/
  isUp : Bool

/-- A bench and its loop. Without a system the loop has an absent one. -/
structure Rig where
  /-- The bench. -/
  bench : Bench
  /-- The loop. -/
  loop : Loop

/-- A step on a bench. -/
abbrev Act := StateM Rig

/-- What an operation named and did not find, or waited for in vain. -/
inductive Missing
  /-- There is no such resource. -/
  | resource (name : String)
  /-- There is no such tree. -/
  | root
  /-- There is no system. -/
  | system
  /-- There is no end to the values that a tree gives. -/
  | rest
  deriving DecidableEq, Repr

/-- The wording of what is missing. -/
def Missing.text : Missing → String
  | .resource name => "no resource " ++ name
  | .root => "no root"
  | .system => "no system"
  | .rest => "no rest"

/-- An operation on a bench. -/
abbrev Op := ExceptT Missing Act

namespace Rig

/-- A bench without anything on it. -/
def initial (journal : Journal) : Rig where
  bench := ⟨[], [], .empty, [], [], 0, 0, [], false⟩
  loop := ⟨.initial journal, .absent⟩

/-! ### Parts -/

/-- The host of a bench. -/
def host (r : Rig) : Host := r.loop.host

/-- Replaces the host. -/
def withHost (r : Rig) (h : Host) : Rig := { r with loop := { r.loop with host := h } }

/-- Replaces the loop. -/
def withLoop (r : Rig) (l : Loop) : Rig := { r with loop := l }

/-- Replaces the channels and the host. -/
def withChannels (r : Rig) (p : Channels Int64 × Host) : Rig :=
  { bench := { r.bench with channels := p.1 }, loop := { r.loop with host := p.2 } }

/-- The resource with a name. -/
def resource? (r : Rig) (name : String) : Option Resource := r.bench.resources.lookup name

/-- The tree with a name. -/
def root? (r : Rig) (name : String) : Option Root := r.bench.roots.lookup name

/-- Takes a resource off the bench without giving it back. -/
def forget (r : Rig) (name : String) : Rig :=
  { r with bench := { r.bench with resources := r.bench.resources.filter (·.1 != name) } }

/-- Replaces the resource with a name, or adds it. -/
def put (r : Rig) (name : String) (x : Resource) : Rig :=
  if (r.resource? name).isSome then
    { r with bench := { r.bench with
        resources := r.bench.resources.map fun (n, y) => if n = name then (n, x) else (n, y) } }
  else { r with bench := { r.bench with resources := r.bench.resources ++ [(name, x)] } }

/-- Replaces the tree with a name, or adds it. -/
def putRoot (r : Rig) (name : String) (x : Root) : Rig :=
  { r with bench := { r.bench with
      roots := r.bench.roots.filter (·.1 != name) ++ [(name, x)] } }

/-- Adds to what probes and functions recorded. -/
def record (r : Rig) (x : Record) : Rig :=
  { r with bench := { r.bench with records := x :: r.bench.records } }

/-- The number of registrations, if there is a system. -/
def registered? (r : Rig) : Option Nat :=
  if r.bench.isUp then some r.loop.system.registered else none

/-! ### Broadcasts and control channels -/

/-- The broadcast with a number. -/
def bus? (r : Rig) (key : Nat) : Option Broadcast := r.bench.buses.lookup key

/-- Replaces the broadcast with a number. -/
def putBus (r : Rig) (key : Nat) (b : Broadcast) : Rig :=
  { r with bench := { r.bench with
      buses := r.bench.buses.map fun (k, c) => if k = key then (k, b) else (k, c) } }

/-- Does anything on the bench hold a copy of a broadcast? -/
def holdsBus (r : Rig) (key : Nat) : Bool :=
  r.bench.resources.any (fun (_, x) => x.broadcast? == some key) ||
    r.bench.roots.any fun (_, t) => t.broadcasts.contains key

/-- Lets go of the subscribers of a broadcast nothing holds a copy of. -/
def sweepBus (r : Rig) (key : Nat) : Rig :=
  if r.holdsBus key then r
  else
    match r.bus? key with
    | none => r
    | some b =>
      let r := { r with bench := { r.bench with buses := r.bench.buses.filter (·.1 != key) } }
      r.withChannels (b.dissolve r.bench.channels r.host)

/-- The control channel with a number belongs to the system there is now. -/
def isCurrentControl (r : Rig) (id : Nat) : Bool :=
  r.bench.isUp && r.loop.system.control.id == id

/-- The control channel with a number. -/
def control? (r : Rig) (id : Nat) : Option (Channel Command) :=
  if r.isCurrentControl id then some r.loop.system.control else r.bench.controls.lookup id

/-- Replaces the control channel with a number; without a system it goes once nobody uses
it. -/
def putControl (r : Rig) (id : Nat) (c : Channel Command) : Rig :=
  if r.isCurrentControl id then
    { r with loop := { r.loop with system := { r.loop.system with control := c } } }
  else
    let others := r.bench.controls.filter (·.1 != id)
    if c.isOrphan then
      { r with bench := { r.bench with controls := others } }.withHost (c.release r.host)
    else { r with bench := { r.bench with controls := others ++ [(id, c)] } }

/-! ### Going -/

/-- Gives back a resource that is on the bench no longer. -/
def discard (r : Rig) : Resource → Rig
  | .notifier n => r.withHost (n.close r.host)
  | .file fd => r.withHost (r.host.close? fd)
  | .socket s => r.withHost (Pollable.close s r.host)
  | .listener s => r.withHost (s.close r.host)
  | .poller p => r.withHost (p.close r.host)
  | .receiver x => r.withChannels (r.bench.channels.modify x.channel Channel.abandon r.host)
  | .sender id => r.withChannels (r.bench.channels.modify id Channel.detach r.host)
  | .bus key | .publisher key => r.sweepBus key
  | .handle id =>
    match r.control? id with
    | some c => r.putControl id c.detach
    | none => r
  | .eventedNotifier e => r.withLoop (e.drop r.loop)
  | .eventedSocket e | .stream e => r.withLoop (e.drop r.loop)
  | .generator g => r.withLoop (g.evented.drop r.loop)
  | .mono m => r.withLoop (m.evented.drop r.loop)
  | .signal e =>
    let r := r.withLoop (e.drop r.loop)
    r.withChannels (r.bench.channels.modify e.inner.channel Channel.abandon r.host)
  | .acceptor e => r.withLoop (e.drop r.loop)
  | .texts s => r.withLoop (s.dropAll r.loop)
  | .streams s => r.withLoop (s.dropAll r.loop)

/-- Drops the resource with a name. -/
def drop (r : Rig) (name : String) : Rig :=
  match r.resource? name with
  | some x => (r.forget name).discard x
  | none => r

/-- Drops the tree with a name. -/
def dropRoot (r : Rig) (name : String) : Rig :=
  match r.root? name with
  | none => r
  | some t =>
    let r := { r with bench := { r.bench with roots := r.bench.roots.filter (·.1 != name) } }
    t.broadcasts.foldl sweepBus r

/-- Puts a resource under a name; the resource or tree that was there goes. -/
def place (r : Rig) (name : String) (x : Resource) : Rig :=
  match r.resource? name with
  | some old => (r.put name x).discard old
  | none => (r.put name x).dropRoot name

/-- Puts a tree under a name; the resource or tree that was there goes. -/
def plant (r : Rig) (name : String) (t : Root) : Rig :=
  let planted := (r.forget name).putRoot name t
  match r.resource? name, r.root? name with
  | some old, _ => planted.discard old
  | none, some old => old.broadcasts.foldl sweepBus planted
  | none, none => planted

/-- Takes the system down. -/
def dropSystem (r : Rig) : Rig :=
  if r.bench.isUp then
    let (control, h) := r.loop.system.retire r.host
    let kept := if control.isOrphan then [] else [(control.id, control)]
    { bench := { r.bench with isUp := false, controls := r.bench.controls ++ kept }
      loop := ⟨h, .absent⟩ }
  else r

/-- Everything goes: the trees, the resources from the greatest name to the least, and the
system. -/
def tearDown (r : Rig) : Rig :=
  let r := (r.bench.roots.map (·.1)).foldl dropRoot r
  let names := (r.bench.resources.map (·.1)).mergeSort fun a b => b ≤ a
  (names.foldl drop r).dropSystem

/-! ### Taking what accumulated -/

/-- What probes and functions recorded, in order. -/
def takeRecords (r : Rig) : List Record × Rig :=
  (r.bench.records.reverse, { r with bench := { r.bench with records := [] } })

/-- The scripted waits, in order. A size that is no number of reports shows as none. -/
def takeWaits (r : Rig) : List (Nat × Int) × Rig :=
  (r.host.waits.reverse.map fun (size, timeout) => (size.toNat, timeout),
    r.withHost { r.host with waits := [] })

/-- What was said, in order. -/
def takeNotices (r : Rig) : List Notice × Rig :=
  let (notices, journal) := r.host.journal.take
  (notices, r.withHost { r.host with journal := journal })

/-- How many values wait in the labelled queues of all trees. -/
def backlog (r : Rig) : List (String × Nat) :=
  (r.bench.roots.map fun (_, t) => t.tree.backlog).flatten

end Rig

/-! ### Operations -/

namespace Op

/-- The resource with a name. -/
def resource (name : String) : Op Resource := do
  match (← get).resource? name with
  | some x => return x
  | none => throw (.resource name)

/-- A part of the resource with a name, if it is of the right kind. -/
def part {α : Type} (name : String) (f : Resource → Option α) : Op α := do
  match f (← resource name) with
  | some a => return a
  | none => throw (.resource name)

/-- There must be a system. -/
def needSystem : Op Unit := do
  if !(← get).bench.isUp then throw .system

/-- Acts on the host. -/
def onHost {α : Type} (f : Host → α × Host) : Op α :=
  modifyGet fun r =>
    let (a, h) := f r.host
    (a, r.withHost h)

/-- Acts on the loop. -/
def onLoop {α : Type} (f : Loop → α × Loop) : Op α :=
  modifyGet fun r =>
    let (a, l) := f r.loop
    (a, r.withLoop l)

/-- Acts on the channels and the host. -/
def onChannels {α : Type} (f : Channels Int64 → Host → α × Channels Int64 × Host) : Op α :=
  modifyGet fun r =>
    let (a, p) := f r.bench.channels r.host
    (a, r.withChannels p)

end Op

end EventLoop

import EventLoop.Bench.Channels
import EventLoop.Bench.React
import EventLoop.System.Root

/-!
# Operations on trees

## Main definitions

* `Op.borrow`, `Op.publishing`, `Op.echoing` — the leaves that stand for resources.
* `Op.plant` — a tree comes.
* `Op.react` — one turn of a tree.
* `Op.poll`, `Op.pollUntil`, `Op.start` — a tree as the root of the loop.
* `slotCycle` — what becomes of a place for a tree that is filled and emptied again.
-/

namespace EventLoop

namespace Op

/-! ### Building -/

/-- The stage that stands for a resource. -/
def borrow (name : String) : (p q : Payload) → Op (BenchTree p q)
  | .unit, .int => do
    match ← resource name with
    | .generator _ => return .leaf (.stage (.generator name))
    | .mono _ => return .leaf (.stage (.mono name))
    | .signal _ => return .leaf (.stage (.signal name))
    | _ => throw (.resource name)
  | .unit, .unit => do
    match ← resource name with
    | .stream _ => return .leaf (.stage (.stream name))
    | _ => throw (.resource name)
  | .unit, .text => do
    match ← resource name with
    | .acceptor _ => return .map (.leaf (.stage (.acceptor name))) .adopt
    | _ => throw (.resource name)
  | _, _ => throw (.resource name)

/-- Publishes every value through a copy of a broadcast. -/
def publishing (name : String) : Op (BenchTree .int .text) := do
  return .map (.leaf (.stage (.publish (← busNamed name).1))) .verdict

/-- Sends back what arrives at the streams of a table. -/
def echoing (name : String) : Op (BenchTree .unit .unit) := do
  match ← resource name with
  | .streams _ => return .leaf (.echo name)
  | _ => throw (.resource name)

/-- Puts a tree under a name; what was there goes. -/
def plant (name : String) (t : Root) : Op Unit := modify (·.plant name t)

/-! ### Turns -/

/-- The tree with a name. -/
def root (name : String) : Op Root := do
  match (← get).root? name with
  | some t => return t
  | none => throw .root

/-- One turn of a tree. -/
def react (name : String) (t : Root) (input : Reaction t.input.Val) :
    Op (Reaction t.output.Val) := modifyGet fun r =>
  let ((out, tree), r) := (t.tree.react behaviour input).run r
  (out, r.putRoot name { t with tree := tree })

/-- One turn of a broadcast as a stage. -/
def publishReact (name : String) (input : Reaction Int64) :
    Op (Reaction (Except Failure Unit)) := do
  let (key, _) ← busNamed name
  modifyGet fun r => (Stage.publishTurn key input).run r

/-! ### Running -/

/-- One turn of a tree as the root of the loop. -/
def rootTurn {p q : Payload} (input : Reaction p.Val) :
    Turn (BenchTree p q × Bench) (Reaction q.Val) :=
  Turn.ofTree behaviour Rig.mk (fun r => (r.bench, r.loop)) input

/-- How many turns may follow one event, and how many waits one run may take. -/
def patience : Nat := 1000000

/-- Lets the loop act on a tree. -/
def drive {α : Type} (name : String) (t : Root)
    (f : Turn (BenchTree t.input t.output × Bench) α) : Op α := modifyGet fun r =>
  let (a, (tree, bench), loop) := StateT.run f ((t.tree, r.bench), r.loop)
  (a, { bench, loop : Rig }.putRoot name { t with tree := tree })

/-- One wait of the loop; how many events did the tree get? -/
def poll (name : String) (timeout : Int) : Op (Except Failure Nat) := do
  let t ← root name
  needSystem
  match ← drive name t (Turn.poll rootTurn patience timeout) with
  | some r => return r
  | none => throw .rest

/-- Runs the loop until it is told to stop. There is no answer if that takes too long. -/
def start (name : String) : Op (Option (Except Failure Unit)) := do
  let t ← root name
  needSystem
  drive name t (Turn.start rootTurn patience patience)

/-- How long each wait of `pollUntil` lasts. -/
def shortWait : Int := 10

/-- Waits, at most so often, until the tree got a number of events or a wait fails; how many
did it get? -/
def pollUntil (name : String) (wanted : Nat) : Nat → Nat → Op Nat
  | 0, got => return got
  | left + 1, got => do
    if wanted ≤ got then return got
    else
      match ← poll name shortWait with
      | .ok n => pollUntil name wanted left (got + n)
      | .error _ => return got

/-! ### Places for trees -/

/-- Is a place filled: one that is new, one whose tree was moved away, and the one it was
moved to? -/
def slotCycle : List Bool :=
  let vacant : Slot Leaf Mapping .unit .unit := .empty
  let (left, taken) := (Slot.fill (.consume : BenchTree .unit .unit)).transfer
  [vacant.isFilled, left.isFilled, taken.isFilled]

end Op

end EventLoop

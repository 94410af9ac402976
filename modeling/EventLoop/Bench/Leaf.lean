import EventLoop.Bench.Resource
import EventLoop.Tree.Basic

/-!
# Leaves of a bench's trees

The stages that a tree on a bench is built from: those that stand for a resource, and probes
that record what reaches them.

## Main definitions

* `Stage` — a stage that stands for a resource, by its name.
* `Mock`, `Play` — probes that answer by the kind of input, or from a list.
* `Leaf` — a stage, a probe, or an echo over a table of streams.
* `Transform`, `Mapping` — what a tree applies to values.
* `Record` — what a probe or function recorded.
-/

namespace EventLoop

/-! ### Values -/

namespace Payload

/-- Are two values of a kind equal? -/
def same : (p : Payload) → p.Val → p.Val → Bool
  | .unit, _, _ => true
  | .int, a, b => a == b
  | .text, a, b => a == b
  | .bytes, a, b => a == b
  | .connection, a, b => a == b
  | .outcome _, .error a, .error b => a == b
  | .outcome p, .ok a, .ok b => p.same a b
  | .outcome _, _, _ => false
  | .choice p _, .inl a, .inl b => p.same a b
  | .choice _ q, .inr a, .inr b => q.same a b
  | .choice _ _, _, _ => false

/-- A value in words. -/
def words : (p : Payload) → p.Val → String
  | .unit, _ => "unit"
  | .int, n => toString n.toInt
  | .text, s => s
  | .bytes, xs => toString xs.length
  | .connection, c => c.peer
  | .outcome _, .error f => f.describe
  | .outcome p, .ok v => p.words v
  | .choice p _, .inl v => "0:" ++ p.words v
  | .choice _ q, .inr v => "1:" ++ q.words v

end Payload

/-! ### Stages -/

/-- A stage that stands for a resource. -/
inductive Stage : Payload → Payload → Type
  /-- The generator with a name. -/
  | generator (name : String) : Stage .unit .int
  /-- The single value with a name. -/
  | mono (name : String) : Stage .unit .int
  /-- The receiving end with a name. -/
  | signal (name : String) : Stage .unit .int
  /-- The stream with a name. -/
  | stream (name : String) : Stage .unit .unit
  /-- The listener with a name. -/
  | acceptor (name : String) : Stage .unit .connection
  /-- A copy of a broadcast, which publishes every value. -/
  | publish (key : Nat) : Stage .int (.outcome .unit)

/-! ### Probes -/

/-- What a probe answers. -/
inductive Action (q : Payload)
  /-- The input, if it is of the output's kind, and otherwise whatever of it can be passed. -/
  | pass
  /-- Nothing. -/
  | idle
  /-- An event. -/
  | event (e : Event)
  /-- A value. -/
  | value (v : q.Val)

/-- Carries out an action on an input. -/
def Action.perform {p q : Payload} (a : Action q) (input : Reaction p.Val) : Reaction q.Val :=
  match a with
  | .pass => if h : p = q then h ▸ input else input.pass
  | .idle => .idle
  | .event e => .event e
  | .value v => .value v

/-- A probe that answers by the kind of its input. -/
structure Mock (q : Payload) where
  /-- The name its calls are recorded under. -/
  name : Option String
  /-- The answer to a value. -/
  onValue : Action q
  /-- The answer to an event. -/
  onEvent : Action q
  /-- The answer to no input. -/
  onIdle : Action q
  /-- Answers to the events of some tokens; the first entry of a token counts. -/
  tokens : List (Token × Action q)

/-- The action a probe takes on an input. -/
def Mock.action {p q : Payload} (m : Mock q) : Reaction p.Val → Action q
  | .value _ => m.onValue
  | .idle => m.onIdle
  | .event e => (m.tokens.lookup e.token).getD m.onEvent

/-- A probe that answers from a list, whatever its input, and then no more. -/
structure Play (q : Payload) where
  /-- The name its calls are recorded under. -/
  name : Option String
  /-- The answers still to come. -/
  actions : List (Action q)

/-! ### Leaves -/

/-- A leaf of a tree on a bench. -/
inductive Leaf : Payload → Payload → Type
  /-- A stage. -/
  | stage {p q : Payload} (s : Stage p q) : Leaf p q
  /-- A probe that answers by the kind of input. -/
  | mock {p q : Payload} (m : Mock q) : Leaf p q
  /-- A probe that answers from a list. -/
  | play {p q : Payload} (m : Play q) : Leaf p q
  /-- Sends back what arrives at the streams of a session table. -/
  | echo (table : String) : Leaf .unit .unit

/-- The broadcast a leaf holds a copy of. -/
def Leaf.broadcast? {p q : Payload} : Leaf p q → Option Nat
  | .stage (.publish key) => some key
  | _ => none

/-! ### Functions -/

/-- A function from values of one kind to values of another. -/
inductive Transform : Payload → Payload → Type
  /-- The same value for every input. -/
  | const {p q : Payload} (v : q.Val) : Transform p q
  /-- The value in words. -/
  | words {p : Payload} : Transform p .text
  /-- The length of the value in words, in bytes. -/
  | length {p : Payload} : Transform p .int
  /-- Text with more text behind it. -/
  | append (s : String) : Transform .text .text
  /-- A sum. -/
  | add (n : Int64) : Transform .int .int
  /-- A number, tagged by whether it is even or odd. -/
  | parity : Transform .int (.choice .int .int)
  /-- Nothing of the value. -/
  | ignore {p : Payload} : Transform p .unit
  /-- Nothing of the value, but one value tells the loop to stop. -/
  | stopOn {p : Payload} (v : p.Val) : Transform p .unit

/-- A function of a tree on a bench. -/
inductive Mapping : Payload → Payload → Type
  /-- A function whose calls are recorded under a name. -/
  | recorded {p q : Payload} (name : Option String) (t : Transform p q) : Mapping p q
  /-- Keeps an accepted stream as a resource and gives the name of its peer. -/
  | adopt : Mapping .connection .text
  /-- The outcome of publishing a value, in words. -/
  | verdict : Mapping (.outcome .unit) .text

/-- The outcome of publishing a value, in words. -/
def outcomeText : Except Failure Unit → String
  | .ok () => "sent"
  | .error f =>
    f.kind.text ++ String.join (f.report.receivers.map fun id => " " ++ toString id)

/-- Something a probe or a function was called with. -/
inductive Record
  /-- A probe had a turn. -/
  | turn (name : Option String) (p : Payload) (input : Reaction p.Val)
  /-- A function was applied. -/
  | applied (name : Option String) (p : Payload) (v : p.Val)

/-- A tree on a bench. -/
abbrev BenchTree := Tree Leaf Mapping

/-- A tree of some kind on a bench. -/
structure Root where
  /-- The kind of its inputs. -/
  input : Payload
  /-- The kind of its outputs. -/
  output : Payload
  /-- The tree. -/
  tree : BenchTree input output

/-- The broadcasts a tree holds copies of. -/
def Root.broadcasts (r : Root) : List Nat :=
  r.tree.leaves.filterMap fun ⟨_, _, l⟩ => l.broadcast?

end EventLoop

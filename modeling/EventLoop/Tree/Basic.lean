import EventLoop.Reaction
import EventLoop.Tree.Payload

/-!
# Reactor trees

A reactor takes one reaction in and gives one out, and may change its state and the world
around it while doing so. Larger reactors are built from smaller ones by four combinators.

A tree is generic in its leaves `L`, in the functions `F` it applies to values, and in the
monad in which both act; `Behaviour` supplies what they do.

## Main definitions

* `Tree` — a reactor built from leaves by `chain`, `map`, `both` and `either`.
* `Tree.react` — one turn.
* `Tree.held` — the values produced but not yet returned, outermost first.
* `Slot` — a place for a reactor that is chosen at run time.

## Rules

* `chain` — only values cross over; anything else coming out of the first part is returned.
* `map` — a function is applied to every value coming out.
* `both` — both parts get every input. One value comes out per turn, and others wait their
  turn; without a value there is no output, not even for an event.
* `either` — a value goes to the part for its alternative. Events and turns without input go
  to both parts, with the same queue; an event both parts pass on comes out again.
-/

namespace EventLoop

/-- A reactor built from leaves `L` and functions `F`, from values of the first kind to
values of the second. -/
inductive Tree (L F : Payload → Payload → Type) : Payload → Payload → Type
  /-- A reactor of its own. -/
  | leaf {p q : Payload} (l : L p q) : Tree L F p q
  /-- Passes everything on. -/
  | consume {p : Payload} : Tree L F p p
  /-- A part whose make was chosen at run time; it behaves as what is in it. -/
  | boxed {p q : Payload} (content : Tree L F p q) : Tree L F p q
  /-- Feeds the values of the first part to the second. -/
  | chain {p q r : Payload} (first : Tree L F p q) (second : Tree L F q r) : Tree L F p r
  /-- Applies a function to every value. -/
  | map {p q r : Payload} (source : Tree L F p q) (f : F q r) : Tree L F p r
  /-- Drives two parts with the same input; `label` is the name its queue is reported under. -/
  | both {p q₁ q₂ r : Payload} (label : Option String) (join : Join q₁ q₂ r)
      (waiting : List r.Val) (first : Tree L F p q₁) (second : Tree L F p q₂) : Tree L F p r
  /-- Drives one part for each alternative of the input. -/
  | either {p₁ p₂ q : Payload} (waiting : List q.Val) (first : Tree L F p₁ q)
      (second : Tree L F p₂ q) : Tree L F (.choice p₁ p₂) q

/-- What the leaves and functions of a tree do in a monad. -/
structure Behaviour (L F : Payload → Payload → Type) (m : Type → Type) where
  /-- One turn of a leaf. -/
  react {p q : Payload} : L p q → Reaction p.Val → m (Reaction q.Val × L p q)
  /-- One application of a function. -/
  apply {p q : Payload} : F p q → p.Val → m q.Val

namespace Tree

variable {L F : Payload → Payload → Type} {m : Type → Type} [Monad m]

/-- What comes out of a queue, and what is left in it. -/
def release {α : Type} : List α → Reaction α × List α
  | [] => (.idle, [])
  | v :: rest => (.value v, rest)

/-- One turn of a tree: what comes out, and the tree afterwards. -/
def react (b : Behaviour L F m) {p q : Payload} :
    Tree L F p q → Reaction p.Val → m (Reaction q.Val × Tree L F p q)
  | .leaf l, input => do
    let (out, l) ← b.react l input
    pure (out, .leaf l)
  | .consume, input => pure (input, .consume)
  | .boxed content, input => do
    let (out, content) ← content.react b input
    pure (out, .boxed content)
  | .chain first second, input => do
    match ← first.react b input with
    | (.value v, first) => do
      let (out, second) ← second.react b (.value v)
      pure (out, .chain first second)
    | (out, first) => pure (out.pass, .chain first second)
  | .map source f, input => do
    match ← source.react b input with
    | (.value v, source) => do
      let w ← b.apply f v
      pure (.value w, .map source f)
    | (out, source) => pure (out.pass, .map source f)
  | .both label join waiting first second, input => do
    let (out₁, first) ← first.react b input
    let (out₂, second) ← second.react b input
    let queue := waiting ++ (out₁.map join.first).values ++ (out₂.map join.second).values
    let (out, waiting) := release queue
    pure (out, .both label join waiting first second)
  | .either waiting first second, .value (.inl v) => do
    let (out, first) ← first.react b (.value v)
    pure (out, .either waiting first second)
  | .either waiting first second, .value (.inr v) => do
    let (out, second) ← second.react b (.value v)
    pure (out, .either waiting first second)
  | .either waiting first second, .event e => do
    let (out₁, first) ← first.react b (.event e)
    let (out₂, second) ← second.react b (.event e)
    match waiting ++ out₁.values ++ out₂.values with
    | v :: rest => pure (.value v, .either rest first second)
    | [] =>
      let out := if out₁.isEvent && out₂.isEvent then out₁ else .idle
      pure (out, .either [] first second)
  | .either waiting first second, .idle => do
    let (out₁, first) ← first.react b .idle
    let (out₂, second) ← second.react b .idle
    let (out, waiting) := release (waiting ++ out₁.values ++ out₂.values)
    pure (out, .either waiting first second)

/-- How many values each queue of the tree holds, outermost first. -/
def held {p q : Payload} : Tree L F p q → List Nat
  | .leaf _ | .consume => []
  | .boxed content => content.held
  | .chain first second => first.held ++ second.held
  | .map source _ => source.held
  | .both _ _ waiting first second => waiting.length :: (first.held ++ second.held)
  | .either waiting first second => waiting.length :: (first.held ++ second.held)

/-- How many values each labelled queue of the tree holds. -/
def backlog {p q : Payload} : Tree L F p q → List (String × Nat)
  | .leaf _ | .consume => []
  | .boxed content => content.backlog
  | .chain first second => first.backlog ++ second.backlog
  | .map source _ => source.backlog
  | .both label _ waiting first second =>
    (label.map fun l => (l, waiting.length)).toList ++ (first.backlog ++ second.backlog)
  | .either _ first second => first.backlog ++ second.backlog

/-- The leaves of a tree, from the first to the last. -/
def leaves {p q : Payload} : Tree L F p q → List (Σ p q, L p q)
  | .leaf l => [⟨_, _, l⟩]
  | .consume => []
  | .boxed content => content.leaves
  | .chain first second => first.leaves ++ second.leaves
  | .map source _ => source.leaves
  | .both _ _ _ first second => first.leaves ++ second.leaves
  | .either _ first second => first.leaves ++ second.leaves

end Tree

/-! ### Reactors chosen at run time -/

/-- A place for a reactor that is chosen at run time. It is empty at first, and again once
its reactor was moved elsewhere. -/
structure Slot (L F : Payload → Payload → Type) (p q : Payload) where
  /-- The reactor in it. -/
  content : Option (Tree L F p q)

namespace Slot

variable {L F : Payload → Payload → Type} {p q : Payload}

/-- A slot without a reactor. -/
def empty : Slot L F p q := ⟨none⟩

/-- Does it hold a reactor? Only then may it be driven. -/
def isFilled (s : Slot L F p q) : Bool := s.content.isSome

/-- Puts a reactor into the slot. -/
def fill (t : Tree L F p q) : Slot L F p q := ⟨some t⟩

/-- The reactor in the slot as a part of a larger one. -/
def part? (s : Slot L F p q) : Option (Tree L F p q) := s.content.map .boxed

/-- Moves the reactor to another slot, which leaves this one empty: first the slot moved
from, then the slot moved to. -/
def transfer (s : Slot L F p q) : Slot L F p q × Slot L F p q := (empty, s)

end Slot

end EventLoop

import EventLoop.Proofs.Tree.Conduct

/-!
# Two parts with the same input

A node that drives two parts gives both of them every input and returns at most one
value a turn.  Here its parts are run on their own, one beside the other, and all
that the node adds is a queue: the values of the parts enter it turn by turn, and one
of them leaves it whenever there is one.

## Main definitions

* `Tree.feed` — a tree answers any inputs, one after the other.
* `Tree.abreast` — two trees answer the same inputs, side by side.
* `Tree.queued` — values that enter a queue turn by turn, and leave it one by one.
* `Join.gather` — the values of one turn of two parts, as they come out of the node.
* `Tapped` — a tree that is driven as a part, with a record of what it was given.

## Main results

* `run_feed_both` — **a node with two parts is its parts side by side and a queue.**
* `queued_spec`, `queued_turn` — what leaves the queue, in all and in each turn.
* `both_abreast` — what a node with two parts gives and is given, for any inputs.
-/

namespace EventLoop

variable {L F : Payload → Payload → Type} {ω : Type} {p q q₁ q₂ r : Payload}

/-! ### One input after the other -/

namespace Tree

/-- A tree answers inputs, one after the other. -/
def feed (b : Behaviour L F (StateM ω)) (t : Tree L F p q) :
    List (Reaction p.Val) → StateM ω (List (Reaction q.Val) × Tree L F p q)
  | [] => pure ([], t)
  | input :: rest => do
    let (out, t) ← t.react b input
    let (outs, t) ← t.feed b rest
    pure (out :: outs, t)

/-- Two trees answer the same inputs, one after the other. The first tree has its turn before the
second. -/
def abreast (b : Behaviour L F (StateM ω)) (t : Tree L F p q₁) (s : Tree L F p q₂) :
    List (Reaction p.Val) →
      StateM ω (List (Reaction q₁.Val × Reaction q₂.Val) × Tree L F p q₁ × Tree L F p q₂)
  | [] => pure ([], t, s)
  | input :: rest => do
    let (out₁, t) ← t.react b input
    let (out₂, s) ← s.react b input
    let (outs, t, s) ← abreast b t s rest
    pure ((out₁, out₂) :: outs, t, s)

/-! ### A queue that releases one value a turn -/

/-- Some values enter a queue turn by turn, and one of those in it leaves it at the end of each
turn: what leaves, and what is left. -/
def queued {α : Type} (waiting : List α) : List (List α) → List (Reaction α) × List α
  | [] => ([], waiting)
  | entering :: rest =>
    let (out, waiting) := release (waiting ++ entering)
    let (outs, waiting) := queued waiting rest
    (out :: outs, waiting)

/-- **What left the queue and what is left are what was in it and what entered it.** -/
theorem queued_spec {α : Type} (turns : List (List α)) : ∀ waiting : List α,
    (queued waiting turns).1.flatMap Reaction.values ++ (queued waiting turns).2
      = waiting ++ turns.flatten := by
  -- on the turns, the queue being what the induction carries
  induction turns with
  | nil => exact fun waiting => (List.append_nil waiting).symm
  | cons entering rest ih =>
    intro waiting
    rw [queued, List.flatMap_cons, List.append_assoc, ih, ← List.append_assoc, values_release,
      List.append_assoc, List.flatten_cons]

/-- **A turn releases a value exactly when** one that is in the queue or has entered it by then
was not released before. -/
theorem queued_turn {α : Type} (turns : List (List α)) : ∀ (waiting : List α) (k : Nat)
    (out : Reaction α), (queued waiting turns).1[k]? = some out →
      (out.isValue = true ↔ ((queued waiting turns).1.take k |>.flatMap Reaction.values).length
        < (waiting ++ (turns.take (k + 1)).flatten).length) ∧
      (out.isValue = false → out = .idle) := by
  induction turns with
  | nil => exact fun waiting k out h => nomatch h
  | cons entering rest ih =>
    intro waiting k out h
    have hrelease := congrArg List.length (values_release (waiting ++ entering))
    rw [List.length_append, List.length_append] at hrelease
    cases k with
    | zero =>
      -- a turn yields a value exactly when the queue it leaves is not empty
      obtain rfl : (release (waiting ++ entering)).1 = out := Option.some.inj h
      have hnil := isValue_release (waiting ++ entering)
      refine ⟨?_, fun hidle => ?_⟩
      · rw [← Bool.not_eq_false, hnil, ← List.length_eq_zero_iff, List.take_succ_cons,
          List.take_zero, List.flatten_cons, List.take_zero, List.flatten_nil, List.append_nil]
        exact Nat.pos_iff_ne_zero.symm
      · rw [hnil.mp hidle]
        rfl
    | succ k =>
      -- what the first turn yields counts on both sides
      obtain ⟨hvalue, hidle⟩ := ih (release (waiting ++ entering)).2 k out h
      refine ⟨hvalue.trans ?_, hidle⟩
      rw [queued]
      simp only [List.take_succ_cons, List.flatMap_cons, List.flatten_cons, List.length_append]
      omega

end Tree

/-! ### The node and its parts -/

namespace Join

/-- The values of one turn of two parts: as they are, or with the side they come from. -/
def gather : Join q₁ q₂ r → Reaction q₁.Val × Reaction q₂.Val → List r.Val
  | .same, (x, y) => x.values ++ y.values
  | .tagged, (x, y) => x.values.map .inl ++ y.values.map .inr

theorem gather_eq (join : Join q₁ q₂ r) (x : Reaction q₁.Val) (y : Reaction q₂.Val) :
    join.gather (x, y) = (x.map join.first).values ++ (y.map join.second).values := by
  rw [Reaction.values_map, Reaction.values_map]
  cases join with
  | same => exact congrArg₂ (· ++ ·) (List.map_id _).symm (List.map_id _).symm
  | tagged => rfl

/-- Does an output say which side it comes from? -/
def isTagged : Join q₁ q₂ r → Bool
  | .same => false
  | .tagged => true

/-- Outputs of two kinds say which side they come from. -/
theorem isTagged_of_ne (join : Join q₁ q₂ r) (h : q₁ ≠ q₂) : join.isTagged = true := by
  cases join with
  | same => exact absurd rfl h
  | tagged => rfl

end Join

namespace Tree

theorem run_abreast_cons {b : Behaviour L F (StateM ω)} {t t' : Tree L F p q₁}
    {s s' : Tree L F p q₂} {input : Reaction p.Val} {out₁ : Reaction q₁.Val}
    {out₂ : Reaction q₂.Val} {w w' w'' : ω} (ht : (t.react b input).run w = ((out₁, t'), w'))
    (hs : (s.react b input).run w' = ((out₂, s'), w'')) (rest : List (Reaction p.Val)) :
    (abreast b t s (input :: rest)).run w
      = (((out₁, out₂) :: ((abreast b t' s' rest).run w'').1.1,
        ((abreast b t' s' rest).run w'').1.2), ((abreast b t' s' rest).run w'').2) := by
  rw [abreast, run_bind_of_run ht, run_bind_of_run hs]
  rfl

/-- **A node with two parts is its parts side by side, and a queue.** -/
theorem run_feed_both (b : Behaviour L F (StateM ω)) (label : Option String) (join : Join q₁ q₂ r)
    (inputs : List (Reaction p.Val)) : ∀ (waiting : List r.Val) (t : Tree L F p q₁)
      (s : Tree L F p q₂) (w : ω),
    let apart := (abreast b t s inputs).run w
    let queue := queued waiting (apart.1.1.map join.gather)
    ((Tree.both label join waiting t s).feed b inputs).run w
      = ((queue.1, .both label join queue.2 apart.1.2.1 apart.1.2.2), apart.2) := by
  induction inputs with
  | nil => exact fun _ _ _ _ => rfl
  | cons input rest ih =>
    intro waiting t s w
    rcases ht : (t.react b input).run w with ⟨⟨out₁, t'⟩, w'⟩
    rcases hs : (s.react b input).run w' with ⟨⟨out₂, s'⟩, w''⟩
    -- one call: the children in order, then the queue
    have hboth : ((Tree.both label join waiting t s).react b input).run w
        = (((release (waiting ++ join.gather (out₁, out₂))).1, .both label join
          (release (waiting ++ join.gather (out₁, out₂))).2 t' s'), w'') := by
      rw [react, run_bind_of_run ht, run_bind_of_run hs, join.gather_eq, ← List.append_assoc]
      rfl
    have hrest := ih (release (waiting ++ join.gather (out₁, out₂))).2 t' s' w''
    dsimp only at hrest ⊢
    rw [feed, run_bind_of_run hboth, run_bind_of_run hrest, run_abreast_cons ht hs, List.map_cons,
      queued]
    rfl

end Tree

/-! ### What the parts are given -/

/-- The first or the second of two parts. -/
inductive Side
  | first
  | second
  deriving DecidableEq, Repr

/-- An input that a part was given. -/
structure Given where
  /-- Which part it is. -/
  side : Side
  /-- The kind of value that the part takes. -/
  kind : Payload
  /-- The input. -/
  input : Reaction kind.Val

/-- A tree that is driven as a part. -/
structure Tapped (L F : Payload → Payload → Type) (p q : Payload) where
  /-- Which part it is. -/
  side : Side
  /-- The tree. -/
  tree : Tree L F p q

namespace Tapped

/-- Parts are driven as ever, and every input that one of them is given is written down. -/
def behaviour (b : Behaviour L F (StateM ω)) :
    Behaviour (Tapped L F) F (StateM (ω × List Given)) where
  react l input := fun (w, log) =>
    let ((out, tree), w) := (l.tree.react b input).run w
    ((out, { l with tree }), w, log ++ [⟨l.side, _, input⟩])
  apply f v := fun (w, log) =>
    let (x, w) := (b.apply f v).run w
    (x, w, log)

theorem run_react {b : Behaviour L F (StateM ω)} {side : Side} {t t' : Tree L F p q}
    {input : Reaction p.Val} {out : Reaction q.Val} {w w' : ω}
    (h : (t.react b input).run w = ((out, t'), w')) (log : List Given) :
    ((Tree.leaf ⟨side, t⟩ : Tree (Tapped L F) F p q).react (behaviour b) input).run (w, log)
      = ((out, .leaf ⟨side, t'⟩), w', log ++ [⟨side, p, input⟩]) := by
  -- the tap only writes the input down
  have hreact : ((behaviour b).react ⟨side, t⟩ input).run (w, log)
      = ((out, ⟨side, t'⟩), w', log ++ [⟨side, p, input⟩]) := by
    show (let ((out, tree), w) := (t.react b input).run w
      ((out, (⟨side, tree⟩ : Tapped L F p q)), w, log ++ [(⟨side, p, input⟩ : Given)])) = _
    rw [h]
  rw [Tree.react, Tree.run_bind_of_run hreact]
  rfl

/-- Two parts side by side are each given every input, the first before the second. -/
theorem run_abreast (b : Behaviour L F (StateM ω)) (inputs : List (Reaction p.Val)) :
    ∀ (t : Tree L F p q₁) (s : Tree L F p q₂) (w : ω) (log : List Given),
    let apart := (Tree.abreast b t s inputs).run w
    (Tree.abreast (behaviour b) (.leaf ⟨.first, t⟩) (.leaf ⟨.second, s⟩) inputs).run (w, log)
      = ((apart.1.1, .leaf ⟨.first, apart.1.2.1⟩, .leaf ⟨.second, apart.1.2.2⟩), apart.2,
        log ++ inputs.flatMap fun input => [⟨.first, p, input⟩, ⟨.second, p, input⟩]) := by
  induction inputs with
  | nil =>
    intro t s w log
    dsimp only
    rw [List.flatMap_nil, List.append_nil]
    rfl
  | cons input rest ih =>
    intro t s w log
    rcases ht : (t.react b input).run w with ⟨⟨out₁, t'⟩, w'⟩
    rcases hs : (s.react b input).run w' with ⟨⟨out₂, s'⟩, w''⟩
    have hrest := ih t' s' w'' (log ++ [⟨.first, p, input⟩] ++ [⟨.second, p, input⟩])
    -- the first child is offered the input before the second
    have habreast := Tree.run_abreast_cons ht hs rest
    dsimp only at hrest ⊢
    rw [habreast, Tree.run_abreast_cons (run_react ht log) (run_react hs _), hrest,
      List.flatMap_cons]
    simp only [List.append_assoc, List.cons_append, List.nil_append]

end Tapped

/-- **A node with two parts, from the start and for any inputs.**  Its parts are in the state in
which they are after the same inputs side by side, and so is the world.  The values that came out
of the node and those that wait are the values of the parts, in order, and each says which side it
comes from if they are of two kinds.  A turn gives a value exactly when one that the parts have
given by then has not come out, and nothing otherwise.  With a record of what they are given, the
node does the same; each part was given every input once, and the first had it before the
second. -/
theorem both_abreast (b : Behaviour L F (StateM ω)) (label : Option String) (join : Join q₁ q₂ r)
    (t : Tree L F p q₁) (s : Tree L F p q₂) (inputs : List (Reaction p.Val)) (w : ω) :
    let apart := (Tree.abreast b t s inputs).run w
    let run := ((Tree.both label join [] t s).feed b inputs).run w
    let tapped := ((Tree.both label join [] (.leaf ⟨.first, t⟩) (.leaf ⟨.second, s⟩)).feed
      (Tapped.behaviour b) inputs).run (w, [])
    (∃ waiting, run.1.2 = .both label join waiting apart.1.2.1 apart.1.2.2 ∧
        run.1.1.flatMap Reaction.values ++ waiting = apart.1.1.flatMap join.gather) ∧
      run.2 = apart.2 ∧
      (∀ (k : Nat) (out : Reaction r.Val), run.1.1[k]? = some out →
        (out.isValue = true ↔ ((run.1.1.take k).flatMap Reaction.values).length
          < ((apart.1.1.take (k + 1)).flatMap join.gather).length) ∧
        (out.isValue = false → out = .idle)) ∧
      (q₁ ≠ q₂ → join.isTagged = true) ∧
      tapped.1.1 = run.1.1 ∧ tapped.2.1 = run.2 ∧
      tapped.2.2 = inputs.flatMap fun input => [⟨.first, p, input⟩, ⟨.second, p, input⟩] := by
  intro apart run tapped
  have hrun : run = _ := Tree.run_feed_both b label join inputs [] t s w
  have htapped : tapped = _ := Tree.run_feed_both (Tapped.behaviour b) label join inputs []
    (.leaf ⟨.first, t⟩) (.leaf ⟨.second, s⟩) (w, [])
  have hparts := Tapped.run_abreast b inputs t s w []
  dsimp only at hrun htapped hparts
  -- tapping the children changes no value and no state
  rw [hparts] at htapped
  refine ⟨⟨_, by rw [hrun], ?_⟩, by rw [hrun], fun k out hout => ?_, join.isTagged_of_ne,
    by rw [htapped, hrun], by rw [htapped, hrun], ?_⟩
  · rw [hrun, Tree.queued_spec, List.nil_append, List.flatMap_def]
  · rw [hrun] at hout ⊢
    have hturn := Tree.queued_turn _ [] k out hout
    rwa [List.nil_append, ← List.map_take, ← List.flatMap_def] at hturn
  · rw [htapped, List.nil_append]

end EventLoop

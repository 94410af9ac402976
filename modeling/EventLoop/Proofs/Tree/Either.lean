import EventLoop.Proofs.Tree.Blend
import EventLoop.Proofs.Tree.Both

/-!
# Two parts with a kind of value each

A node with a part for each of two kinds of value passes a value on to the part that
takes it, and that part's answer is the answer.  Anything else goes to both parts,
and the values that they give then enter a queue, which the answers to values bypass.
As with two parts that share their input, the parts are run on their own here, one
beside the other, and all that the node adds is how a turn of theirs is settled.

## Main definitions

* `Answers` — what the parts gave in one turn.
* `Answers.settle`, `Tree.settled` — what comes out of one turn and of any turns, and what
  waits afterwards.
* `Tree.share`, `Tree.apart` — two trees answer one input and any inputs, side by side.
* `Given.handed` — what the parts are given for an input.

## Main results

* `run_feed_either` — **a node with a part for each kind is its parts side by side, each
  turn of theirs settled with the queue.**
* `settled_spec`, `settled_turn` — what leaves the queue, in all and in each turn.
* `feed_either_turn` — every turn meets what waits when it begins.
* `either_apart` — what such a node gives and is given, for any inputs.
-/

namespace EventLoop

variable {L F : Payload → Payload → Type} {ω : Type} {p₁ p₂ q : Payload}

/-! ### Settling a turn -/

/-- What the parts answered in one turn. -/
inductive Answers (α : Type)
  /-- A value reached the part that takes it. -/
  | value (side : Side) (answer : Reaction α)
  /-- An event reached both parts. -/
  | event (first second : Reaction α)
  /-- Both parts had a turn without input. -/
  | idle (first second : Reaction α)

namespace Answers

variable {α : Type}

/-- The values that enter the queue. -/
def entering : Answers α → List α
  | .value _ _ => []
  | .event x y | .idle x y => x.values ++ y.values

/-- The values that leave the queue in a turn that gives `out`. -/
def leaving : Answers α → Reaction α → List α
  | .value _ _, _ => []
  | .event _ _, out | .idle _ _, out => out.values

/-- What comes out of two parts that give no value: an event that both pass on. -/
def passed (x y : Reaction α) : Reaction α := if x.isEvent && y.isEvent then x else .idle

/-- What comes out of a turn, and what waits afterwards. -/
def settle (waiting : List α) : Answers α → Reaction α × List α
  | .value _ answer => (answer, waiting)
  | .event x y => Blend.yield (passed x y) (waiting ++ x.values ++ y.values)
  | .idle x y => Blend.yield .idle (waiting ++ x.values ++ y.values)

theorem values_passed (x y : Reaction α) : (passed x y).values = [] := by
  cases x <;> cases y <;> rfl

theorem passed_eq_event_iff {x y : Reaction α} {e : Event} :
    passed x y = .event e ↔ x = .event e ∧ y.isEvent = true := by
  cases x <;> cases y <;> simp [passed, Reaction.isEvent]

/-- What leaves the queue and what is left are what was in it and what enters. -/
theorem leaving_settle (waiting : List α) (turn : Answers α) :
    turn.leaving (turn.settle waiting).1 ++ (turn.settle waiting).2
      = waiting ++ turn.entering := by
  cases turn with
  | value side answer => exact (List.append_nil waiting).symm
  | event x y =>
    exact (Blend.values_yield (values_passed x y) _).trans (List.append_assoc _ _ _)
  | idle x y => exact (Blend.values_yield rfl _).trans (List.append_assoc _ _ _)

/-- Two parts that are both asked give a value unless none is there. -/
theorem isValue_yield_iff {rest : Reaction α} (hrest : rest.values = []) (queue : List α) :
    (Blend.yield rest queue).1.isValue = true ↔ queue ≠ [] := by
  rw [← Bool.not_eq_false]
  exact not_congr (Blend.isValue_yield hrest queue)

/-- An event comes out if it is the rest and no value is there. -/
theorem yield_eq_event_iff {rest : Reaction α} {queue : List α} {e : Event} :
    (Blend.yield rest queue).1 = .event e ↔ rest = .event e ∧ queue = [] := by
  cases queue with
  | nil => exact ⟨fun h => ⟨h, rfl⟩, fun h => h.1⟩
  | cons v queue => exact ⟨nofun, fun h => nomatch h.2⟩

/-- Without an event that is passed on, none comes out. -/
theorem isEvent_yield_idle (queue : List α) : (Blend.yield .idle queue).1.isEvent = false := by
  cases queue <;> rfl

/-- A turn with an event gives an event if both parts pass theirs on and nothing waits. -/
theorem settle_event_eq_event_iff {waiting : List α} {x y : Reaction α} {e : Event} :
    (settle waiting (.event x y)).1 = .event e ↔
      x = .event e ∧ y.isEvent = true ∧ waiting = [] := by
  refine yield_eq_event_iff.trans ?_
  rw [passed_eq_event_iff, and_assoc]
  refine and_congr_right fun hx => and_congr_right fun hy => ?_
  -- parts that give events give no values
  subst hx
  cases y with
  | event e' => rw [Reaction.values_event, Reaction.values_event, List.append_nil, List.append_nil]
  | idle => cases hy
  | value v => cases hy

end Answers

namespace Tree

variable {α : Type}

/-- What comes out of turns, one after the other, and what waits after the last. -/
def settled (waiting : List α) : List (Answers α) → List (Reaction α) × List α
  | [] => ([], waiting)
  | turn :: rest =>
    let (out, waiting) := turn.settle waiting
    let (outs, waiting) := settled waiting rest
    (out :: outs, waiting)

/-- **What left the queue and what is left are what was in it and what entered it.** -/
theorem settled_spec (turns : List (Answers α)) : ∀ waiting : List α,
    (List.zipWith Answers.leaving turns (settled waiting turns).1).flatten
        ++ (settled waiting turns).2
      = waiting ++ turns.flatMap Answers.entering := by
  induction turns with
  | nil => exact fun waiting => (List.append_nil waiting).symm
  | cons turn rest ih =>
    intro waiting
    rw [settled, List.zipWith_cons_cons, List.flatten_cons, List.append_assoc, ih,
      ← List.append_assoc, Answers.leaving_settle, List.append_assoc, List.flatMap_cons]

/-- Each turn is settled with what waits after those before it. -/
theorem settled_turn (turns : List (Answers α)) : ∀ (waiting : List α) (k : Nat)
    (turn : Answers α), turns[k]? = some turn →
      let before := (settled waiting (turns.take k)).2
      (settled waiting turns).1[k]? = some (turn.settle before).1 ∧
        (settled waiting (turns.take (k + 1))).2 = (turn.settle before).2 := by
  -- on the turns: what is queued before a turn is all that the earlier turns hand on
  induction turns with
  | nil => exact fun _ _ _ h => nomatch h
  | cons head rest ih =>
    intro waiting k turn h
    cases k with
    | zero =>
      obtain rfl : head = turn := Option.some.inj h
      exact ⟨rfl, rfl⟩
    | succ k => exact ih _ k turn h

/-! ### The node and its parts -/

/-- The values in the queue of the outermost node. -/
def waiting {p q : Payload} : Tree L F p q → List q.Val
  | .both _ _ waiting _ _ => waiting
  | .either waiting _ _ => waiting
  | _ => []

/-- Two trees answer an input. A value goes to the tree that takes it, and anything else goes to
the first and then to the second. -/
def share (b : Behaviour L F (StateM ω)) (t : Tree L F p₁ q) (s : Tree L F p₂ q) :
    Reaction (Payload.choice p₁ p₂).Val →
      StateM ω (Answers q.Val × Tree L F p₁ q × Tree L F p₂ q)
  | .value (.inl v) => do
    let (answer, t) ← t.react b (.value v)
    pure (.value .first answer, t, s)
  | .value (.inr v) => do
    let (answer, s) ← s.react b (.value v)
    pure (.value .second answer, t, s)
  | .event e => do
    let (x, t) ← t.react b (.event e)
    let (y, s) ← s.react b (.event e)
    pure (.event x y, t, s)
  | .idle => do
    let (x, t) ← t.react b .idle
    let (y, s) ← s.react b .idle
    pure (.idle x y, t, s)

/-- Two trees answer inputs, one after the other. -/
def apart (b : Behaviour L F (StateM ω)) (t : Tree L F p₁ q) (s : Tree L F p₂ q) :
    List (Reaction (Payload.choice p₁ p₂).Val) →
      StateM ω (List (Answers q.Val) × Tree L F p₁ q × Tree L F p₂ q)
  | [] => pure ([], t, s)
  | input :: rest => do
    let (turn, t, s) ← share b t s input
    let (turns, t, s) ← apart b t s rest
    pure (turn :: turns, t, s)

/-- A turn of the node is a turn of its parts, settled with the queue. -/
theorem run_react_either (b : Behaviour L F (StateM ω)) (waiting : List q.Val)
    (t : Tree L F p₁ q) (s : Tree L F p₂ q) (input : Reaction (Payload.choice p₁ p₂).Val) (w : ω) :
    let shared := (share b t s input).run w
    let out := shared.1.1.settle waiting
    ((Tree.either waiting t s).react b input).run w
      = ((out.1, .either out.2 shared.1.2.1 shared.1.2.2), shared.2) := by
  match input with
  | .value (.inl v) => rfl
  | .value (.inr v) => rfl
  | .idle => rfl
  -- a value goes to one child and needs no queue; only a shared input meets what is held
  | .event e =>
    rcases ht : (t.react b (.event e)).run w with ⟨⟨x, t'⟩, w'⟩
    rcases hs : (s.react b (.event e)).run w' with ⟨⟨y, s'⟩, w''⟩
    have hshared : (share b t s (.event e)).run w = ((.event x y, t', s'), w'') := by
      rw [share, run_bind_of_run ht, run_bind_of_run hs]
      rfl
    rw [hshared, react, run_bind_of_run ht, run_bind_of_run hs]
    dsimp only [Answers.settle]
    cases waiting ++ x.values ++ y.values with
    | nil => rfl
    | cons v rest => rfl

/-- **A node with a part for each kind is its parts side by side**, each turn of theirs settled
with the queue. -/
theorem run_feed_either (b : Behaviour L F (StateM ω))
    (inputs : List (Reaction (Payload.choice p₁ p₂).Val)) : ∀ (waiting : List q.Val)
      (t : Tree L F p₁ q) (s : Tree L F p₂ q) (w : ω),
    let apart := (apart b t s inputs).run w
    let queue := settled waiting apart.1.1
    ((Tree.either waiting t s).feed b inputs).run w
      = ((queue.1, .either queue.2 apart.1.2.1 apart.1.2.2), apart.2) := by
  induction inputs with
  | nil => exact fun _ _ _ _ => rfl
  | cons input rest ih =>
    intro waiting t s w
    rcases hshared : (share b t s input).run w with ⟨⟨turn, t', s'⟩, w'⟩
    have hturn := run_react_either b waiting t s input w
    have hrest := ih (turn.settle waiting).2 t' s' w'
    dsimp only at hturn hrest ⊢
    rw [hshared] at hturn
    rw [feed, run_bind_of_run hturn, run_bind_of_run hrest, apart, run_bind_of_run hshared]
    rfl

/-- What the parts answer first does not depend on what comes later. -/
theorem apart_take (b : Behaviour L F (StateM ω))
    (inputs : List (Reaction (Payload.choice p₁ p₂).Val)) : ∀ (k : Nat)
      (t : Tree L F p₁ q) (s : Tree L F p₂ q) (w : ω),
    ((apart b t s (inputs.take k)).run w).1.1 = ((apart b t s inputs).run w).1.1.take k := by
  induction inputs with
  | nil =>
    intro k t s w
    rw [List.take_nil]
    exact List.take_nil.symm
  | cons input rest ih =>
    intro k t s w
    cases k with
    | zero => rfl
    | succ k =>
      rcases hshared : (share b t s input).run w with ⟨⟨turn, t', s'⟩, w'⟩
      rw [List.take_succ_cons, apart, run_bind_of_run hshared, apart, run_bind_of_run hshared]
      exact congrArg (turn :: ·) (ih k t' s' w')

/-- Each input is answered by the parts as they are by then. -/
theorem exists_share (b : Behaviour L F (StateM ω))
    (inputs : List (Reaction (Payload.choice p₁ p₂).Val)) : ∀ (k : Nat)
      (input : Reaction (Payload.choice p₁ p₂).Val) (t : Tree L F p₁ q) (s : Tree L F p₂ q) (w : ω),
    inputs[k]? = some input → ∃ t' s' w',
      ((apart b t s inputs).run w).1.1[k]? = some ((share b t' s' input).run w').1.1 := by
  induction inputs with
  | nil => exact fun _ _ _ _ _ h => nomatch h
  | cons head rest ih =>
    intro k input t s w h
    rcases hshared : (share b t s head).run w with ⟨⟨turn, t', s'⟩, w'⟩
    rw [apart, run_bind_of_run hshared]
    cases k with
    | zero =>
      obtain rfl : head = input := Option.some.inj h
      exact ⟨t, s, w, congrArg some (congrArg (·.1.1) hshared).symm⟩
    -- the children as they are when the turn comes
    | succ k => exact ih k input t' s' w' h

/-- What waits in the node is what the turns of its parts have left. -/
theorem waiting_feed_either (b : Behaviour L F (StateM ω)) (t : Tree L F p₁ q) (s : Tree L F p₂ q)
    (inputs : List (Reaction (Payload.choice p₁ p₂).Val)) (w : ω) (k : Nat) :
    (((Tree.either [] t s).feed b (inputs.take k)).run w).1.2.waiting
      = (settled [] (((apart b t s inputs).run w).1.1.take k)).2 := by
  have htake := run_feed_either b (inputs.take k) [] t s w
  dsimp only at htake
  rw [apart_take] at htake
  exact congrArg (fun x => x.1.2.waiting) htake

/-- **Every turn of the node is settled with what waits when it begins.** -/
theorem feed_either_turn (b : Behaviour L F (StateM ω)) (t : Tree L F p₁ q) (s : Tree L F p₂ q)
    (inputs : List (Reaction (Payload.choice p₁ p₂).Val)) (w : ω) {k : Nat} {turn : Answers q.Val}
    (hk : ((apart b t s inputs).run w).1.1[k]? = some turn) :
    let held := fun k => (((Tree.either [] t s).feed b (inputs.take k)).run w).1.2.waiting
    (((Tree.either [] t s).feed b inputs).run w).1.1[k]? = some (turn.settle (held k)).1 ∧
      held (k + 1) = (turn.settle (held k)).2 := by
  have hrun := run_feed_either b inputs [] t s w
  dsimp only at hrun ⊢
  rw [waiting_feed_either, waiting_feed_either, hrun]
  exact settled_turn _ [] k turn hk

end Tree

namespace Reaction

variable {α β : Type}

/-- The values that leave a queue with an output, which answers to values do not touch. -/
def released (input : Reaction α) (out : Reaction β) : List β :=
  if input.isValue then [] else out.values

end Reaction

namespace Tree

theorem leaving_share (b : Behaviour L F (StateM ω)) (t : Tree L F p₁ q) (s : Tree L F p₂ q)
    (input : Reaction (Payload.choice p₁ p₂).Val) (w : ω) (out : Reaction q.Val) :
    ((share b t s input).run w).1.1.leaving out = input.released out := by
  match input with
  | .value (.inl v) => rfl
  | .value (.inr v) => rfl
  | .event e => rfl
  | .idle => rfl

theorem zipWith_leaving_apart (b : Behaviour L F (StateM ω))
    (inputs : List (Reaction (Payload.choice p₁ p₂).Val)) : ∀ (t : Tree L F p₁ q)
      (s : Tree L F p₂ q) (w : ω) (outs : List (Reaction q.Val)),
    List.zipWith Answers.leaving ((apart b t s inputs).run w).1.1 outs
      = List.zipWith Reaction.released inputs outs := by
  induction inputs with
  | nil => exact fun _ _ _ _ => rfl
  | cons input rest ih =>
    intro t s w outs
    cases outs with
    | nil => rw [List.zipWith_nil_right, List.zipWith_nil_right]
    | cons out outs =>
      exact congrArg₂ List.cons (leaving_share b t s input w out) (ih _ _ _ outs)

end Tree

/-! ### What the parts are given -/

/-- What the parts of a node with a part for each kind are given for an input. -/
def Given.handed : Reaction (Payload.choice p₁ p₂).Val → List Given
  | .value (.inl v) => [⟨.first, p₁, .value v⟩]
  | .value (.inr v) => [⟨.second, p₂, .value v⟩]
  | .event e => [⟨.first, p₁, .event e⟩, ⟨.second, p₂, .event e⟩]
  | .idle => [⟨.first, p₁, .idle⟩, ⟨.second, p₂, .idle⟩]

namespace Tapped

theorem run_share (b : Behaviour L F (StateM ω)) (t : Tree L F p₁ q) (s : Tree L F p₂ q)
    (input : Reaction (Payload.choice p₁ p₂).Val) (w : ω) (log : List Given) :
    let shared := (Tree.share b t s input).run w
    (Tree.share (behaviour b) (.leaf ⟨.first, t⟩) (.leaf ⟨.second, s⟩) input).run (w, log)
      = ((shared.1.1, .leaf ⟨.first, shared.1.2.1⟩, .leaf ⟨.second, shared.1.2.2⟩), shared.2,
        log ++ Given.handed input) := by
  match input with
  | .value (.inl v) => rfl
  | .value (.inr v) => rfl
  | .event e =>
    dsimp only
    rw [Given.handed, List.append_cons]
    rfl
  | .idle =>
    dsimp only
    rw [Given.handed, List.append_cons]
    rfl

theorem run_apart (b : Behaviour L F (StateM ω))
    (inputs : List (Reaction (Payload.choice p₁ p₂).Val)) : ∀ (t : Tree L F p₁ q)
      (s : Tree L F p₂ q) (w : ω) (log : List Given),
    let apart := (Tree.apart b t s inputs).run w
    (Tree.apart (behaviour b) (.leaf ⟨.first, t⟩) (.leaf ⟨.second, s⟩) inputs).run (w, log)
      = ((apart.1.1, .leaf ⟨.first, apart.1.2.1⟩, .leaf ⟨.second, apart.1.2.2⟩), apart.2,
        log ++ inputs.flatMap Given.handed) := by
  induction inputs with
  | nil =>
    intro t s w log
    dsimp only
    rw [List.flatMap_nil, List.append_nil]
    rfl
  | cons input rest ih =>
    intro t s w log
    rcases hshared : (Tree.share b t s input).run w with ⟨⟨turn, t', s'⟩, w'⟩
    -- what is written down is who was handed the input
    have htapped := run_share b t s input w log
    have hrest := ih t' s' w' (log ++ Given.handed input)
    dsimp only at htapped hrest ⊢
    rw [hshared] at htapped
    rw [Tree.apart, Tree.run_bind_of_run htapped, Tree.run_bind_of_run hrest, Tree.apart,
      Tree.run_bind_of_run hshared, List.flatMap_cons, List.append_assoc]
    rfl

end Tapped

/-- **A node with a part for each kind, from the start and for any inputs.**  Its parts are in the
state in which they are after the same inputs side by side, and so is the world.  The values that
came out on events and on turns without input, and those that wait, are the values that the parts
gave on such turns, in order.  A value is answered by the part that takes it, and what waits is
not touched.  Any other turn gives a value exactly when one waits or is given; an event comes out
exactly when an event came in, both parts gave one and nothing waits, and then it is the first
part's.  With a record of what they are given, the node does the same; each part was given its
values and everything that is no value, once, and the first had it before the second. -/
theorem either_apart (b : Behaviour L F (StateM ω)) (t : Tree L F p₁ q) (s : Tree L F p₂ q)
    (inputs : List (Reaction (Payload.choice p₁ p₂).Val)) (w : ω) :
    let apart := (Tree.apart b t s inputs).run w
    let run := ((Tree.either [] t s).feed b inputs).run w
    let held := fun k => (((Tree.either [] t s).feed b (inputs.take k)).run w).1.2.waiting
    let tapped := ((Tree.either [] (.leaf ⟨.first, t⟩) (.leaf ⟨.second, s⟩)).feed
      (Tapped.behaviour b) inputs).run (w, [])
    (run.1.2 = .either (held inputs.length) apart.1.2.1 apart.1.2.2 ∧ run.2 = apart.2) ∧
      (List.zipWith Reaction.released inputs run.1.1).flatten ++ held inputs.length
        = apart.1.1.flatMap Answers.entering ∧
      (∀ k v, inputs[k]? = some (.value v) → ∃ side answer,
        apart.1.1[k]? = some (.value side answer) ∧ (side = .first ↔ v.isLeft = true) ∧
        run.1.1[k]? = some answer ∧ held (k + 1) = held k) ∧
      (∀ k e, inputs[k]? = some (.event e) → ∃ x y out,
        apart.1.1[k]? = some (.event x y) ∧ run.1.1[k]? = some out ∧
        (out.isValue = true ↔ held k ++ x.values ++ y.values ≠ []) ∧
        ∀ e', out = .event e' ↔ x = .event e' ∧ y.isEvent = true ∧ held k = []) ∧
      (∀ k, inputs[k]? = some .idle → ∃ x y out,
        apart.1.1[k]? = some (.idle x y) ∧ run.1.1[k]? = some out ∧
        (out.isValue = true ↔ held k ++ x.values ++ y.values ≠ []) ∧ out.isEvent = false) ∧
      tapped.1.1 = run.1.1 ∧ tapped.2.1 = run.2 ∧
      tapped.2.2 = inputs.flatMap Given.handed := by
  intro apart run held tapped
  have hrun : run = _ := Tree.run_feed_either b inputs [] t s w
  have htapped : tapped = _ := Tree.run_feed_either (Tapped.behaviour b) inputs []
    (.leaf ⟨.first, t⟩) (.leaf ⟨.second, s⟩) (w, [])
  have hparts := Tapped.run_apart b inputs t s w []
  dsimp only at hrun htapped hparts
  rw [hparts] at htapped
  have hturn : ∀ k turn, apart.1.1[k]? = some turn →
      run.1.1[k]? = some (turn.settle (held k)).1 ∧ held (k + 1) = (turn.settle (held k)).2 :=
    fun k turn => Tree.feed_either_turn b t s inputs w
  have hall : held inputs.length = run.1.2.waiting := by
    show (((Tree.either [] t s).feed b (inputs.take inputs.length)).run w).1.2.waiting = _
    rw [List.take_length]
  refine ⟨⟨?_, by rw [hrun]⟩, ?_, fun k v hk => ?_, fun k e hk => ?_, fun k hk => ?_,
    by rw [htapped, hrun], by rw [htapped, hrun], by rw [htapped, List.nil_append]⟩
  · rw [hall, hrun]
    rfl
  · have hspec := Tree.settled_spec apart.1.1 []
    rw [Tree.zipWith_leaving_apart, List.nil_append] at hspec
    rw [hall, hrun]
    exact hspec
  · obtain ⟨t', s', w', hshare⟩ := Tree.exists_share b inputs k _ t s w hk
    obtain ⟨hout, hafter⟩ := hturn k _ hshare
    cases v with
    | inl v => exact ⟨_, _, hshare, iff_of_true rfl rfl, hout, hafter⟩
    | inr v => exact ⟨_, _, hshare, iff_of_false nofun nofun, hout, hafter⟩
  · obtain ⟨t', s', w', hshare⟩ := Tree.exists_share b inputs k _ t s w hk
    exact ⟨_, _, _, hshare, (hturn k _ hshare).1,
      Answers.isValue_yield_iff (Answers.values_passed _ _) _,
      fun e' => Answers.settle_event_eq_event_iff⟩
  · obtain ⟨t', s', w', hshare⟩ := Tree.exists_share b inputs k _ t s w hk
    refine ⟨_, _, _, hshare, (hturn k _ hshare).1, Answers.isValue_yield_iff rfl _,
      Answers.isEvent_yield_idle _⟩

end EventLoop

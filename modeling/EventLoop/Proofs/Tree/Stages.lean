import EventLoop.Bench.Roots
import EventLoop.Proofs.Tree.Draining

/-!
# What the stages answer

Producers and streams answer to events and to turns without input, and never to a
value; publishing answers every value with a value and nothing else.  With these
traits, which trees give back what they hold can be computed.

## Main definitions

* `Stage.gives`, `Mock.gives`, `Leaf.traits` — the traits of the stages and of
  the probes.

## Main results

* `Leaf.conduct` — **stages and probes keep to their traits.**
* `not_drained_of_chain` — a chain that leaves a value behind.
-/

namespace EventLoop

/-! ### Stages -/

namespace Stage

variable {p q : Payload}

/-- May a stage answer with a value? -/
def gives {p q : Payload} : Stage p q → Drive → Bool
  | .publish _, d => d == .value
  | _, d => d == .signal

/-- Does a stage answer every value with a value? -/
def insists {p q : Payload} : Stage p q → Bool
  | .publish _ => true
  | _ => false

theorem fst_run_modifyGet {α : Type} (f : Rig → α × Rig) (r : Rig) :
    ((modifyGet f : Act α).run r).1 = (f r).1 := rfl

/-- A stage that is given a value answers with none, unless it publishes. -/
theorem idle_of_value (s : Stage p q) (v : p.Val) (r : Rig) (hs : s.insists = false) :
    ((s.react (.value v)).run r).1.isValue = false := by
  cases s with
  | publish key => cases hs
  | _ name =>
    -- a stage whose resource is gone answers nothing, and the others pass values over
    rw [react, fst_run_modifyGet]
    split <;> rfl

theorem gives_of_value (s : Stage p q) (input : Reaction p.Val) (r : Rig)
    (h : ((s.react input).run r).1.isValue = true) : s.gives input.drive = true := by
  cases hs : s.insists with
  | false =>
    cases input with
    | value v =>
      rw [idle_of_value s v r hs] at h
      cases h
    | idle =>
      cases s with
      | publish key => cases hs
      | _ name => rfl
    | event e =>
      cases s with
      | publish key => cases hs
      | _ name => rfl
  | true =>
    cases s with
    | publish key =>
      cases input with
      | value v => rfl
      | idle => cases h
      | event e => cases h
    | _ name => cases hs

theorem value_of_insists (s : Stage p q) (input : Reaction p.Val) (r : Rig)
    (hin : input.isValue = true) (hs : s.insists = true) :
    ((s.react input).run r).1.isValue = true := by
  cases s with
  | publish key =>
    cases input with
    | value v => rfl
    | idle => cases hin
    | event e => cases hin
  | _ name => cases hs

end Stage

/-! ### Probes -/

namespace Action

variable {p q : Payload}

/-- May an action on an input of kind `p` give a value? -/
def gives (p : Payload) {q : Payload} : Action q → Drive → Bool
  | .value _, _ => true
  | .pass, d => d == .value && decide (p = q)
  | _, _ => false

/-- What an action gives depends on what drives it only. -/
theorem isValue_perform (a : Action q) (input : Reaction p.Val) :
    (a.perform input).isValue = a.gives p input.drive := by
  cases a with
  | pass =>
    unfold perform
    by_cases h : p = q
    · subst h
      cases input <;> simp [gives, Reaction.drive, Reaction.isValue]
    · simp [h, gives]
  | idle => rfl
  | event e => rfl
  | value v => rfl

end Action

namespace Mock

variable {p q : Payload}

/-- May a probe answer with a value? -/
def gives (p : Payload) {q : Payload} (m : Mock q) : Drive → Bool
  | .value => m.onValue.gives p .value
  | .signal => m.onEvent.gives p .signal || m.onIdle.gives p .signal ||
    m.tokens.any fun (_, a) => a.gives p .signal

theorem gives_of_value (m : Mock q) (input : Reaction p.Val)
    (h : ((m.action input).perform input).isValue = true) : m.gives p input.drive = true := by
  rw [Action.isValue_perform] at h
  cases input with
  | value v => exact h
  | idle =>
    show (_ || _ || _) = true
    rw [show m.onIdle.gives p .signal = true from h, Bool.or_true, Bool.true_or]
  | event e =>
    show (_ || _ || _) = true
    change ((m.tokens.lookup e.token).getD m.onEvent).gives p .signal = true at h
    cases hl : m.tokens.lookup e.token with
    | none =>
      rw [hl] at h
      rw [show m.onEvent.gives p .signal = true from h, Bool.true_or, Bool.true_or]
    | some a =>
      rw [hl] at h
      -- the action looked up is one of the listed ones
      have hmem : (e.token, a) ∈ m.tokens := by
        obtain ⟨before, rest, htokens, -⟩ := List.lookup_eq_some_iff.mp hl
        rw [htokens]
        exact List.mem_append_right before List.mem_cons_self
      rw [List.any_eq_true.mpr ⟨_, hmem, h⟩, Bool.or_true]

end Mock

/-! ### Leaves -/

namespace Leaf

variable {p q : Payload}

/-- The traits of the leaves on a bench. A probe that answers from a list may answer
anything. -/
def traits : Traits Leaf where
  gives {p _} l d :=
    match l with
    | .stage s => s.gives d
    | .mock m => m.gives p d
    | .play _ => true
    | .echo _ => false
  insists {p _} l :=
    match l with
    | .stage s => s.insists
    | .mock m => m.onValue.gives p .value
    | .play _ => false
    | .echo _ => false

theorem isValue_echo (table : String) (input : Reaction Unit) (r : Rig) :
    ((Echo.react table input).run r).1.isValue = false := by
  rw [Echo.react, Stage.fst_run_modifyGet]
  split
  · split <;> rfl
  · rfl

/-- **Stages and probes keep to their traits.** -/
theorem conduct : Conduct behaviour traits where
  gives_of_value l input r h := by
    cases l with
    | stage s => exact s.gives_of_value input r h
    | mock m => exact m.gives_of_value input h
    | play m => rfl
    | echo table =>
      have hecho := isValue_echo table input r
      change ((Echo.react table input).run r).1.isValue = true at h
      rw [hecho] at h
      cases h
  value_of_insists l input r hin hl := by
    cases l with
    | stage s => exact s.value_of_insists input r hin hl
    | mock m =>
      show ((m.action input).perform input).isValue = true
      rw [Action.isValue_perform, Reaction.drive_of_isValue hin]
      cases input with
      | value v => exact hl
      | idle => cases hin
      | event e => cases hin
    | play m => cases hl
    | echo table => cases hl
  gives_eq l input r d := by
    cases l with
    | stage s => rfl
    | mock m => rfl
    | play m =>
      obtain ⟨name, actions⟩ := m
      cases actions <;> rfl
    | echo table => rfl
  insists_eq l input r := by
    cases l with
    | stage s => rfl
    | mock m => rfl
    | play m =>
      obtain ⟨name, actions⟩ := m
      cases actions <;> rfl
    | echo table => rfl

end Leaf

/-! ### Generators -/

/-- A bench with nothing but a generator, registered under token 0. -/
def Rig.generating (values : List Int64) : Rig :=
  (Rig.initial .silent).put "numbers" (.generator ⟨values, ⟨⟨none⟩, some 0, .readable, false, false,
    false⟩⟩)

/-- The stage that stands for it. -/
def numbers : BenchTree .unit .int := .leaf (.stage (.generator "numbers"))

/-- The event of the generator is dispatched to a tree: did that come to an end, and what are
tree, bench and loop then? -/
def afterEvent {q : Payload} (t : BenchTree .unit q) (values : List Int64) :
    Bool × (BenchTree .unit q × Bench) × Loop :=
  (Turn.dispatch (Turn.ofTree behaviour Rig.mk fun r => (r.bench, r.loop)) 3 ⟨0, .nothing⟩).run
    ((t, (Rig.generating values).bench), (Rig.generating values).loop)

/-- Two numbers come out one after the other, and the second is held in between. -/
theorem drained_of_dispatch_numbers :
    (afterEvent (.both none .same [] numbers (.chain numbers .consume)) [7, 8]).1 = true ∧
      (afterEvent (.both none .same [] numbers (.chain numbers .consume)) [7, 8]).2.1.1.Drained := by
  -- an allowance of three is enough
  have hend : (afterEvent (.both none .same [] numbers (.chain numbers .consume)) [7, 8]).1
      = true := by
    decide +kernel
  have hdrained : (Tree.both none .same [] numbers (.chain numbers .consume) :
      BenchTree .unit .int).Drained :=
    Tree.drained_both.mpr ⟨rfl, Tree.drained_leaf _, Tree.drained_chain.mpr
      ⟨Tree.drained_leaf _, Tree.drained_consume⟩⟩
  exact ⟨hend, (Turn.drained_of_dispatch Leaf.conduct ⟨0, .nothing⟩ 3 _ _ _ hend).2 rfl hdrained⟩

/-- **A single number can stay behind**: both parts of a second part make a value of it, and
only one of these comes out. -/
theorem not_drained_of_chain :
    (Tree.chain numbers (.both none .same [] .consume .consume) : BenchTree .unit .int).Drained ∧
      (afterEvent (.chain numbers (.both none .same [] .consume .consume)) [7]).1 = true ∧
      ¬ (afterEvent (.chain numbers (.both none .same [] .consume .consume)) [7]).2.1.1.Drained := by
  -- the one value crossed into the second stage, which yields one copy and holds the other
  have hheld : (afterEvent (.chain numbers (.both none .same [] .consume .consume)) [7]).2.1.1.held
      = [1] := by
    decide +kernel
  refine ⟨?_, by decide +kernel, fun h => ?_⟩
  · exact Tree.drained_chain.mpr ⟨Tree.drained_leaf _,
      Tree.drained_both.mpr ⟨rfl, Tree.drained_consume, Tree.drained_consume⟩⟩
  · have hone := h 1 (by rw [hheld]; exact List.mem_cons_self)
    cases hone

end EventLoop

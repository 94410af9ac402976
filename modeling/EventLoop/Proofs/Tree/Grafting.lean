import EventLoop.Proofs.Tree.Turned

/-!
# Trees in the place of leaves

A leaf of a tree may be anything that takes turns, and so may be a tree of its own.
Putting trees in the place of the leaves gives one tree again.  If every leaf does
what its tree does, and every function what the function in its place does, then the
tree takes the turns of the one that it becomes, whatever else its leaves write down.

## Main definitions

* `Tree.graft` — a tree with trees in the place of its leaves.

## Main results

* `Tree.run_react_graft` — **a tree takes the turns of the tree that it becomes.**
* `Tree.graft_leaf` — leaves in the place of leaves change nothing.
-/

namespace EventLoop

variable {L L₁ L₂ F F₁ F₂ : Payload → Payload → Type} {ω ω₁ ω₂ : Type}

namespace Tree

/-- The tree with trees in the place of its leaves and functions in the place of its own. -/
def graft (φ : {p q : Payload} → L₁ p q → Tree L₂ F₂ p q)
    (γ : {p q : Payload} → F₁ p q → F₂ p q) {p q : Payload} : Tree L₁ F₁ p q → Tree L₂ F₂ p q
  | .leaf l => φ l
  | .consume => .consume
  | .boxed content => .boxed (content.graft φ γ)
  | .chain first second => .chain (first.graft φ γ) (second.graft φ γ)
  | .map source f => .map (source.graft φ γ) (γ f)
  | .both label join waiting first second =>
    .both label join waiting (first.graft φ γ) (second.graft φ γ)
  | .either waiting first second => .either waiting (first.graft φ γ) (second.graft φ γ)

/-- Leaves in the place of leaves change nothing. -/
theorem graft_leaf {p q : Payload} (t : Tree L F p q) : t.graft .leaf id = t := by
  induction t with
  | leaf l => rfl
  | consume => rfl
  | boxed t ih => rw [graft, ih]
  | chain t s iht ihs => rw [graft, iht, ihs]
  | map t f ih => rw [graft, ih, id]
  | both label join waiting t s iht ihs => rw [graft, iht, ihs]
  | either waiting t s iht ihs => rw [graft, iht, ihs]

variable {b : Behaviour L₁ F₁ (StateM ω₁)} {c : Behaviour L₂ F₂ (StateM ω₂)}
  {φ : {p q : Payload} → L₁ p q → Tree L₂ F₂ p q} {γ : {p q : Payload} → F₁ p q → F₂ p q}
  {ψ : ω₁ → ω₂}

/-- **A tree takes the turns of the tree that it becomes**, if its leaves do and its functions are
the same, seen through `ψ`. -/
theorem run_react_graft
    (hleaf : ∀ {p q : Payload} (l : L₁ p q) (input : Reaction p.Val) (w : ω₁),
      ((φ l).react c input).run (ψ w) = ((((b.react l input).run w).1.1,
        φ ((b.react l input).run w).1.2), ψ ((b.react l input).run w).2))
    (happly : ∀ {p q : Payload} (f : F₁ p q) (v : p.Val) (w : ω₁),
      (c.apply (γ f) v).run (ψ w)
        = (((b.apply f v).run w).1, ψ ((b.apply f v).run w).2))
    {p q : Payload} (t : Tree L₁ F₁ p q) : ∀ (input : Reaction p.Val) (w : ω₁),
      ((t.graft φ γ).react c input).run (ψ w) = ((((t.react b input).run w).1.1,
        ((t.react b input).run w).1.2.graft φ γ), ψ ((t.react b input).run w).2) := by
  -- on the tree: grafting keeps its shape, so the two runs take the same branch at every node
  induction t with
  | leaf l => exact hleaf l
  | consume =>
    intro input w
    rfl
  | boxed t ih =>
    intro input w
    rw [graft, react, run_bind_of_run (ih input w)]
    rfl
  | chain t s iht ihs =>
    intro input w
    have ht := iht input w
    rcases hr : (t.react b input).run w with ⟨⟨out, t'⟩, w'⟩
    rw [hr] at ht
    rw [graft, react, react, run_bind_of_run ht, run_bind_of_run hr]
    cases out with
    | value v =>
      -- only a value of the first stage turns the second
      have hs := ihs (.value v) w'
      dsimp only
      rw [run_bind_of_run hs]
      rfl
    | idle => rfl
    | event e => rfl
  | map t f ih =>
    intro input w
    have ht := ih input w
    rcases hr : (t.react b input).run w with ⟨⟨out, t'⟩, w'⟩
    rw [hr] at ht
    rw [graft, react, react, run_bind_of_run ht, run_bind_of_run hr]
    cases out with
    | value v =>
      dsimp only
      rw [run_bind_of_run (happly f v w')]
      rfl
    | idle => rfl
    | event e => rfl
  | both label join waiting t s iht ihs =>
    intro input w
    have ht := iht input w
    rcases hr : (t.react b input).run w with ⟨⟨out₁, t'⟩, w'⟩
    rw [hr] at ht
    have hs := ihs input w'
    rcases hr' : (s.react b input).run w' with ⟨⟨out₂, s'⟩, w''⟩
    rw [hr'] at hs
    rw [graft, react, react, run_bind_of_run ht, run_bind_of_run hs, run_bind_of_run hr,
      run_bind_of_run hr']
    rfl
  | either waiting t s iht ihs =>
    intro input w
    cases input with
    | value v =>
      cases v with
      | inl v =>
        rw [graft, react, run_bind_of_run (iht (.value v) w)]
        rfl
      | inr v =>
        rw [graft, react, run_bind_of_run (ihs (.value v) w)]
        rfl
    | idle =>
      have ht := iht .idle w
      rcases hr : (t.react b .idle).run w with ⟨⟨out₁, t'⟩, w'⟩
      rw [hr] at ht
      have hs := ihs .idle w'
      rcases hr' : (s.react b .idle).run w' with ⟨⟨out₂, s'⟩, w''⟩
      rw [hr'] at hs
      rw [graft, react, react, run_bind_of_run ht, run_bind_of_run hs, run_bind_of_run hr,
        run_bind_of_run hr']
      rfl
    | event e =>
      have ht := iht (.event e) w
      rcases hr : (t.react b (.event e)).run w with ⟨⟨out₁, t'⟩, w'⟩
      rw [hr] at ht
      have hs := ihs (.event e) w'
      rcases hr' : (s.react b (.event e)).run w' with ⟨⟨out₂, s'⟩, w''⟩
      rw [hr'] at hs
      rw [graft, react, react, run_bind_of_run ht, run_bind_of_run hs, run_bind_of_run hr,
        run_bind_of_run hr']
      dsimp only
      -- the event is passed on only where nothing is held or yielded
      cases waiting ++ out₁.values ++ out₂.values with
      | nil => rfl
      | cons v rest => rfl

end Tree

end EventLoop

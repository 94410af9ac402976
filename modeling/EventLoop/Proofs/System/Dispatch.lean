import EventLoop.Proofs.Tree.Conduct
import EventLoop.System.Root

/-!
# Dispatching to a root

A dispatch is a turn with an event and turns without input after it.  What holds of
every turn of a root is carried over to whole dispatches here, for any root.

## Main definitions

* `Turn.observed` — a root that keeps what comes out of it.
* `Turn.Simulates` — one root behaves as another, seen through a function.

## Main results

* `Turn.run_dispatch_of_run`, `Turn.run_redrive_succ` — a dispatch by its turns.
* `Turn.Simulates.dispatch` — **a dispatch is seen through the same function.**
* `Turn.simulates_observed` — to keep what comes out changes nothing else.
* `Turn.dispatch_keeps` — **what every turn keeps, a dispatch keeps.**
* `Turn.redrive_done` — **turns without input come to an end, if every value makes the next one
  come nearer.**
-/

namespace EventLoop

namespace Turn

variable {ρ ρ₁ ρ₂ α β β₁ β₂ : Type}

/-! ### Turn by turn -/

/-- A turn of a tree as a root is the turn that the tree takes. -/
theorem run_ofTree {L F : Payload → Payload → Type} {σ ω : Type} {b : Behaviour L F (StateM ω)}
    {join : σ → Loop → ω} (split : ω → σ × Loop) {p q : Payload} {t t' : Tree L F p q} {x : σ}
    {l : Loop} {input : Reaction p.Val} {out : Reaction q.Val} {w : ω}
    (h : (t.react b input).run (join x l) = ((out, t'), w)) :
    (ofTree b join split input).run ((t, x), l) = (out, ((t', (split w).1), (split w).2)) := by
  show (fun y : (Reaction q.Val × Tree L F p q) × ω =>
    (y.1.1, ((y.1.2, (split y.2).1), (split y.2).2))) ((t.react b input).run (join x l)) = _
  rw [h]

section

variable {react : Reaction α → Turn ρ (Reaction β)} {x y : ρ × Loop} {out : Reaction β}

/-- A dispatch goes on after its first turn if that gave a value. -/
theorem run_dispatch_of_run {e : Event} (h : (react (.event e)).run x = (out, y)) (n : Nat) :
    (dispatch react n e).run x = if out.isValue then (redrive react n).run y else (true, y) := by
  unfold dispatch
  rw [Tree.run_bind_of_run h]
  cases out <;> rfl

/-- It goes on after a turn without input for the same reason. -/
theorem run_redrive_succ (h : (react .idle).run (x.1, x.2.note .valueDropped) = (out, y))
    (n : Nat) : (redrive react (n + 1)).run x
      = if out.isValue then (redrive react n).run y else (true, y) := by
  have hnote : (note .valueDropped : Turn ρ Unit).run x = ((), x.1, x.2.note .valueDropped) := rfl
  rw [redrive, Tree.run_bind_of_run hnote, Tree.run_bind_of_run h]
  cases out <;> rfl

end

/-! ### Roots that behave as others -/

/-- A root that keeps what comes out of it. -/
def observed (react : Reaction α → Turn ρ (Reaction β)) (input : Reaction α) :
    Turn (ρ × List β) (Reaction β) := fun x =>
  let y := (react input).run (x.1.1, x.2)
  (y.1, ((y.2.1, x.1.2 ++ y.1.values), y.2.2))

/-- The second root behaves as the first, if states are seen through `φ` and values through
`ψ`. -/
def Simulates (react₁ : Reaction α → Turn ρ₁ (Reaction β₁))
    (react₂ : Reaction α → Turn ρ₂ (Reaction β₂)) (φ : ρ₁ → ρ₂) (ψ : β₁ → β₂) : Prop :=
  ∀ input, input.isValue = false → ∀ r l, (react₂ input).run (φ r, l)
    = (((react₁ input).run (r, l)).1.map ψ, φ ((react₁ input).run (r, l)).2.1,
        ((react₁ input).run (r, l)).2.2)

/-- To keep what comes out of a root changes nothing else. -/
theorem simulates_observed (react : Reaction α → Turn ρ (Reaction β)) :
    Simulates (observed react) react Prod.fst id := by
  intro input _ r l
  rw [Reaction.map_id]
  rfl

namespace Simulates

variable {react₁ : Reaction α → Turn ρ₁ (Reaction β₁)}
  {react₂ : Reaction α → Turn ρ₂ (Reaction β₂)} {φ : ρ₁ → ρ₂} {ψ : β₁ → β₂}

theorem observed (h : Simulates react₁ react₂ φ ψ) :
    Simulates (observed react₁) (observed react₂) (fun r => (φ r.1, r.2.map ψ)) ψ := by
  intro input hin r l
  have hrun := h input hin r.1 l
  show (((react₂ input).run (φ r.1, l)).1,
    ((((react₂ input).run (φ r.1, l)).2.1, r.2.map ψ ++ ((react₂ input).run (φ r.1, l)).1.values),
      ((react₂ input).run (φ r.1, l)).2.2)) = _
  rw [hrun, Reaction.values_map, ← List.map_append]
  rfl

theorem redrive (h : Simulates react₁ react₂ φ ψ) (n : Nat) (r : ρ₁) (l : Loop) :
    (redrive react₂ n).run (φ r, l) = (((redrive react₁ n).run (r, l)).1,
      φ ((redrive react₁ n).run (r, l)).2.1, ((redrive react₁ n).run (r, l)).2.2) := by
  induction n generalizing r l with
  | zero => rfl
  | succ n ih =>
    have hturn := h .idle rfl r (l.note .valueDropped)
    rcases hrun : (react₁ .idle).run (r, l.note .valueDropped) with ⟨out, r', l'⟩
    rw [hrun] at hturn
    rw [run_redrive_succ (x := (r, l)) hrun, run_redrive_succ (x := (φ r, l)) hturn,
      Reaction.isValue_map]
    -- both go on, or both stop
    split
    · exact ih r' l'
    · rfl

theorem dispatch (h : Simulates react₁ react₂ φ ψ) (n : Nat) (e : Event) (r : ρ₁) (l : Loop) :
    (dispatch react₂ n e).run (φ r, l) = (((dispatch react₁ n e).run (r, l)).1,
      φ ((dispatch react₁ n e).run (r, l)).2.1, ((dispatch react₁ n e).run (r, l)).2.2) := by
  have hturn := h (.event e) rfl r l
  rcases hrun : (react₁ (.event e)).run (r, l) with ⟨out, r', l'⟩
  rw [hrun] at hturn
  rw [run_dispatch_of_run hrun, run_dispatch_of_run hturn, Reaction.isValue_map]
  split
  · exact h.redrive n r' l'
  · rfl

end Simulates

/-! ### Invariants -/

variable {react : Reaction α → Turn ρ (Reaction β)} {P Q : ρ × Loop → Prop}

theorem redrive_keeps (hnote : ∀ r l n, P (r, l) → P (r, l.note n))
    (hturn : ∀ input, input.isValue = false → ∀ x, P x → P ((react input).run x).2) (n : Nat) :
    ∀ x, P x → P ((redrive react n).run x).2 := by
  induction n with
  | zero => exact fun x hx => hx
  | succ n ih =>
    intro x hx
    have hnext := hturn .idle rfl _ (hnote x.1 x.2 .valueDropped hx)
    rcases hrun : (react .idle).run (x.1, x.2.note .valueDropped) with ⟨out, y⟩
    rw [hrun] at hnext
    rw [run_redrive_succ hrun]
    split
    · exact ih y hnext
    · exact hnext

/-- What every turn keeps, a dispatch keeps. -/
theorem dispatch_keeps (hnote : ∀ r l n, P (r, l) → P (r, l.note n))
    (hturn : ∀ input, input.isValue = false → ∀ x, P x → P ((react input).run x).2) (n : Nat)
    (e : Event) {x : ρ × Loop} (hx : P x) : P ((dispatch react n e).run x).2 := by
  have hnext := hturn (.event e) rfl x hx
  rcases hrun : (react (.event e)).run x with ⟨out, y⟩
  rw [hrun] at hnext
  rw [run_dispatch_of_run hrun]
  split
  · exact redrive_keeps hnote hturn n y hnext
  · exact hnext

/-- Turns without input come to an end, if with each value fewer are to come. -/
theorem redrive_done (load : ρ × Loop → Nat)
    (hnote : ∀ r l n, P (r, l) → P (r, l.note n) ∧ load (r, l.note n) = load (r, l))
    (hturn : ∀ x out y, (react .idle).run x = (out, y) → P x →
      P y ∧ (out.isValue = true → load y < load x) ∧ (out.isValue = false → Q y)) (n : Nat) :
    ∀ x, P x → load x < n →
      ((redrive react n).run x).1 = true ∧ Q ((redrive react n).run x).2 := by
  induction n with
  | zero => exact fun x _ hn => absurd hn (Nat.not_lt_zero _)
  | succ n ih =>
    intro x hx hn
    obtain ⟨hx', hsame⟩ := hnote x.1 x.2 .valueDropped hx
    have hle : load (x.1, x.2.note .valueDropped) ≤ n := Nat.le_of_lt_succ (hsame ▸ hn)
    rcases hrun : (react .idle).run (x.1, x.2.note .valueDropped) with ⟨out, y⟩
    obtain ⟨hy, hless, hlast⟩ := hturn _ out y hrun hx'
    rw [run_redrive_succ hrun]
    split
    next hout => exact ih y hy (Nat.lt_of_lt_of_le (hless hout) hle)
    next hout => exact ⟨rfl, hlast (Bool.not_eq_true _ ▸ hout)⟩

end Turn

end EventLoop

import EventLoop.Tree.Basic
import Mathlib.Data.List.Basic

/-!
# What a turn of a tree can do

A turn runs leaves and functions in a monad.  It is stated here as a relation, with
one rule for each way in which a node can take its turn.  What becomes of the tree
depends on the answers of leaves and functions alone; a second relation leaves the
states of the world out.

## Main definitions

* `Stepped b t w input out t' w'` — in the world `w`, `t` answers `input` with `out`; the
  tree is `t'` and the world `w'` afterwards.
* `Turned b t input out t'` — the same for some state of the world.

## Main results

* `Tree.stepped_react`, `Tree.turned_react` — every turn is one of these.
-/

namespace EventLoop

variable {L F : Payload → Payload → Type} {ω : Type}

/-- What a turn of a tree can do, and what it does to the world. -/
inductive Stepped (b : Behaviour L F (StateM ω)) : {p q : Payload} → Tree L F p q → ω →
    Reaction p.Val → Reaction q.Val → Tree L F p q → ω → Prop
  | leaf {p q : Payload} {l l' : L p q} {w w' : ω} {input : Reaction p.Val}
      {out : Reaction q.Val} (h : (b.react l input).run w = ((out, l'), w')) :
      Stepped b (.leaf l) w input out (.leaf l') w'
  | consume {p : Payload} (w : ω) (input : Reaction p.Val) :
      Stepped b .consume w input input .consume w
  | boxed {p q : Payload} {t t' : Tree L F p q} {w w' : ω} {input : Reaction p.Val}
      {out : Reaction q.Val} (h : Stepped b t w input out t' w') :
      Stepped b (.boxed t) w input out (.boxed t') w'
  /-- A value crosses over. -/
  | cross {p q r : Payload} {t t' : Tree L F p q} {s s' : Tree L F q r} {w w₁ w₂ : ω}
      {input : Reaction p.Val} {v : q.Val} {out : Reaction r.Val}
      (ht : Stepped b t w input (.value v) t' w₁) (hs : Stepped b s w₁ (.value v) out s' w₂) :
      Stepped b (.chain t s) w input out (.chain t' s') w₂
  /-- No value crosses over, and the second part has no turn. -/
  | stay {p q r : Payload} {t t' : Tree L F p q} {s : Tree L F q r} {w w' : ω}
      {input : Reaction p.Val} {out : Reaction q.Val} (ht : Stepped b t w input out t' w')
      (hout : out.isValue = false) : Stepped b (.chain t s) w input out.pass (.chain t' s) w'
  | mapped {p q r : Payload} {t t' : Tree L F p q} {f : F q r} {w w₁ w₂ : ω}
      {input : Reaction p.Val} {v : q.Val} {x : r.Val}
      (ht : Stepped b t w input (.value v) t' w₁) (hf : (b.apply f v).run w₁ = (x, w₂)) :
      Stepped b (.map t f) w input (.value x) (.map t' f) w₂
  | unmapped {p q r : Payload} {t t' : Tree L F p q} {f : F q r} {w w' : ω}
      {input : Reaction p.Val} {out : Reaction q.Val} (ht : Stepped b t w input out t' w')
      (hout : out.isValue = false) : Stepped b (.map t f) w input out.pass (.map t' f) w'
  /-- Both parts have a turn, the first before the second. -/
  | both {p q₁ q₂ r : Payload} {label : Option String} {join : Join q₁ q₂ r}
      {waiting : List r.Val} {t t' : Tree L F p q₁} {s s' : Tree L F p q₂} {w w₁ w₂ : ω}
      {input : Reaction p.Val} {out₁ : Reaction q₁.Val} {out₂ : Reaction q₂.Val}
      (ht : Stepped b t w input out₁ t' w₁) (hs : Stepped b s w₁ input out₂ s' w₂) :
      Stepped b (.both label join waiting t s) w input
        (Tree.release (waiting ++ (out₁.map join.first).values ++ (out₂.map join.second).values)).1
        (.both label join
          (Tree.release
            (waiting ++ (out₁.map join.first).values ++ (out₂.map join.second).values)).2 t' s') w₂
  /-- A value of the first alternative. -/
  | left {p₁ p₂ q : Payload} {waiting : List q.Val} {t t' : Tree L F p₁ q} {s : Tree L F p₂ q}
      {w w' : ω} {v : p₁.Val} {out : Reaction q.Val} (ht : Stepped b t w (.value v) out t' w') :
      Stepped b (.either waiting t s) w (.value (.inl v)) out (.either waiting t' s) w'
  /-- A value of the second alternative. -/
  | right {p₁ p₂ q : Payload} {waiting : List q.Val} {t : Tree L F p₁ q} {s s' : Tree L F p₂ q}
      {w w' : ω} {v : p₂.Val} {out : Reaction q.Val} (hs : Stepped b s w (.value v) out s' w') :
      Stepped b (.either waiting t s) w (.value (.inr v)) out (.either waiting t s') w'
  /-- An event or no input reaches both alternatives; without a value, what comes out is none
  either. -/
  | fork {p₁ p₂ q : Payload} {waiting : List q.Val} {t t' : Tree L F p₁ q} {s s' : Tree L F p₂ q}
      {w w₁ w₂ : ω} {input : Reaction (Payload.choice p₁ p₂).Val} {out₁ out₂ out : Reaction q.Val}
      (hin : input.isValue = false) (ht : Stepped b t w input.pass out₁ t' w₁)
      (hs : Stepped b s w₁ input.pass out₂ s' w₂)
      (hout : out.isValue = (Tree.release (waiting ++ out₁.values ++ out₂.values)).1.isValue) :
      Stepped b (.either waiting t s) w input out
        (.either (Tree.release (waiting ++ out₁.values ++ out₂.values)).2 t' s') w₂

/-- What a turn of a tree can do. -/
inductive Turned (b : Behaviour L F (StateM ω)) : {p q : Payload} → Tree L F p q →
    Reaction p.Val → Reaction q.Val → Tree L F p q → Prop
  | leaf {p q : Payload} {l l' : L p q} {input : Reaction p.Val} {out : Reaction q.Val} {w w' : ω}
      (h : (b.react l input).run w = ((out, l'), w')) : Turned b (.leaf l) input out (.leaf l')
  | consume {p : Payload} (input : Reaction p.Val) : Turned b .consume input input .consume
  | boxed {p q : Payload} {t t' : Tree L F p q} {input : Reaction p.Val} {out : Reaction q.Val}
      (h : Turned b t input out t') : Turned b (.boxed t) input out (.boxed t')
  /-- A value crosses over. -/
  | cross {p q r : Payload} {t t' : Tree L F p q} {s s' : Tree L F q r} {input : Reaction p.Val}
      {v : q.Val} {out : Reaction r.Val} (ht : Turned b t input (.value v) t')
      (hs : Turned b s (.value v) out s') : Turned b (.chain t s) input out (.chain t' s')
  /-- No value crosses over, and the second part has no turn. -/
  | stay {p q r : Payload} {t t' : Tree L F p q} {s : Tree L F q r} {input : Reaction p.Val}
      {out : Reaction q.Val} (ht : Turned b t input out t') (hout : out.isValue = false) :
      Turned b (.chain t s) input out.pass (.chain t' s)
  | mapped {p q r : Payload} {t t' : Tree L F p q} {f : F q r} {input : Reaction p.Val}
      {v : q.Val} (ht : Turned b t input (.value v) t') (w : r.Val) :
      Turned b (.map t f) input (.value w) (.map t' f)
  | unmapped {p q r : Payload} {t t' : Tree L F p q} {f : F q r} {input : Reaction p.Val}
      {out : Reaction q.Val} (ht : Turned b t input out t') (hout : out.isValue = false) :
      Turned b (.map t f) input out.pass (.map t' f)
  | both {p q₁ q₂ r : Payload} {label : Option String} {join : Join q₁ q₂ r}
      {waiting : List r.Val} {t t' : Tree L F p q₁} {s s' : Tree L F p q₂}
      {input : Reaction p.Val} {out₁ : Reaction q₁.Val} {out₂ : Reaction q₂.Val}
      (ht : Turned b t input out₁ t') (hs : Turned b s input out₂ s') :
      Turned b (.both label join waiting t s) input
        (Tree.release (waiting ++ (out₁.map join.first).values ++ (out₂.map join.second).values)).1
        (.both label join
          (Tree.release
            (waiting ++ (out₁.map join.first).values ++ (out₂.map join.second).values)).2 t' s')
  /-- A value of the first alternative. -/
  | left {p₁ p₂ q : Payload} {waiting : List q.Val} {t t' : Tree L F p₁ q} {s : Tree L F p₂ q}
      {v : p₁.Val} {out : Reaction q.Val} (ht : Turned b t (.value v) out t') :
      Turned b (.either waiting t s) (.value (.inl v)) out (.either waiting t' s)
  /-- A value of the second alternative. -/
  | right {p₁ p₂ q : Payload} {waiting : List q.Val} {t : Tree L F p₁ q} {s s' : Tree L F p₂ q}
      {v : p₂.Val} {out : Reaction q.Val} (hs : Turned b s (.value v) out s') :
      Turned b (.either waiting t s) (.value (.inr v)) out (.either waiting t s')
  /-- An event or no input reaches both alternatives; without a value, what comes out is none
  either. -/
  | fork {p₁ p₂ q : Payload} {waiting : List q.Val} {t t' : Tree L F p₁ q} {s s' : Tree L F p₂ q}
      {input : Reaction (Payload.choice p₁ p₂).Val} {out₁ out₂ out : Reaction q.Val}
      (hin : input.isValue = false) (ht : Turned b t input.pass out₁ t')
      (hs : Turned b s input.pass out₂ s')
      (hout : out.isValue = (Tree.release (waiting ++ out₁.values ++ out₂.values)).1.isValue) :
      Turned b (.either waiting t s) input out
        (.either (Tree.release (waiting ++ out₁.values ++ out₂.values)).2 t' s')

/-- The world can be left out. -/
theorem Stepped.turned {b : Behaviour L F (StateM ω)} {p q : Payload} {t t' : Tree L F p q}
    {w w' : ω} {input : Reaction p.Val} {out : Reaction q.Val}
    (h : Stepped b t w input out t' w') : Turned b t input out t' := by
  induction h with
  | leaf h => exact .leaf h
  | consume w input => exact .consume input
  | boxed _ ih => exact .boxed ih
  | cross _ _ iht ihs => exact .cross iht ihs
  | stay _ hout ih => exact .stay ih hout
  | mapped _ _ ih => exact .mapped ih _
  | unmapped _ hout ih => exact .unmapped ih hout
  | both _ _ iht ihs => exact .both iht ihs
  | left _ ih => exact .left ih
  | right _ ih => exact .right ih
  | fork hin _ _ hout iht ihs => exact .fork hin iht ihs hout

namespace Tree

/-- Two steps in a row, when the first is known. -/
theorem run_bind_of_run {α β : Type} {x : StateM ω α} {k : α → StateM ω β} {a : α} {w w' : ω}
    (h : x.run w = (a, w')) : (x >>= k).run w = (k a).run w' := by
  show (k (x.run w).1).run (x.run w).2 = _
  rw [h]

/-! ### Chains and functions, turn by turn -/

section

variable {b : Behaviour L F (StateM ω)} {p q r : Payload} {t t' : Tree L F p q}
  {s s' : Tree L F q r} {f : F q r} {input : Reaction p.Val} {v : q.Val} {w w₁ w₂ : ω}

theorem run_react_cross {out : Reaction r.Val}
    (h₁ : (t.react b input).run w = ((.value v, t'), w₁))
    (h₂ : (s.react b (.value v)).run w₁ = ((out, s'), w₂)) :
    ((Tree.chain t s).react b input).run w = ((out, .chain t' s'), w₂) := by
  rw [react, run_bind_of_run h₁]
  dsimp only
  rw [run_bind_of_run h₂]
  rfl

theorem run_react_stay {out : Reaction q.Val} (h : (t.react b input).run w = ((out, t'), w₁))
    (hout : out.isValue = false) (s : Tree L F q r) :
    ((Tree.chain t s).react b input).run w = ((out.pass, .chain t' s), w₁) := by
  rw [react, run_bind_of_run h]
  cases out with
  | value v => cases hout
  | idle => rfl
  | event e => rfl

theorem run_react_mapped {x : r.Val} (h : (t.react b input).run w = ((.value v, t'), w₁))
    (hf : (b.apply f v).run w₁ = (x, w₂)) :
    ((Tree.map t f).react b input).run w = ((.value x, .map t' f), w₂) := by
  rw [react, run_bind_of_run h]
  dsimp only
  rw [run_bind_of_run hf]
  rfl

theorem run_react_unmapped {out : Reaction q.Val}
    (h : (t.react b input).run w = ((out, t'), w₁)) (hout : out.isValue = false) (f : F q r) :
    ((Tree.map t f).react b input).run w = ((out.pass, .map t' f), w₁) := by
  rw [react, run_bind_of_run h]
  cases out with
  | value v => cases hout
  | idle => rfl
  | event e => rfl

end

/-- Every turn of a tree is one of these. -/
theorem stepped_react (b : Behaviour L F (StateM ω)) {p q : Payload} (t : Tree L F p q) :
    ∀ (input : Reaction p.Val) (w : ω),
      Stepped b t w input ((t.react b input).run w).1.1 ((t.react b input).run w).1.2
        ((t.react b input).run w).2 := by
  -- each branch of a node is one constructor
  induction t with
  | leaf l =>
    intro input w
    exact .leaf rfl
  | consume =>
    intro input w
    exact .consume w input
  | boxed t ih =>
    intro input w
    exact .boxed (ih input w)
  | chain t s iht ihs =>
    intro input w
    have ht := iht input w
    rcases hr : (t.react b input).run w with ⟨⟨out, t'⟩, w'⟩
    rw [hr] at ht
    rw [react, run_bind_of_run hr]
    cases out with
    | value v => exact .cross ht (ihs (.value v) w')
    | idle => exact .stay ht rfl
    | event e => exact .stay ht rfl
  | map t f ih =>
    intro input w
    have ht := ih input w
    rcases hr : (t.react b input).run w with ⟨⟨out, t'⟩, w'⟩
    rw [hr] at ht
    rw [react, run_bind_of_run hr]
    cases out with
    | value v => exact .mapped ht rfl
    | idle => exact .unmapped ht rfl
    | event e => exact .unmapped ht rfl
  | both label join waiting t s iht ihs =>
    intro input w
    exact .both (iht input w) (ihs input _)
  | either waiting t s iht ihs =>
    intro input w
    cases input with
    | value v =>
      cases v with
      | inl v => exact .left (iht (.value v) w)
      | inr v => exact .right (ihs (.value v) w)
    | idle => exact .fork rfl (iht .idle w) (ihs .idle _) rfl
    | event e =>
      have ht := iht (.event e) w
      rcases hr : (t.react b (.event e)).run w with ⟨⟨out₁, t'⟩, w'⟩
      have hs := ihs (.event e) w'
      rcases hr' : (s.react b (.event e)).run w' with ⟨⟨out₂, s'⟩, w''⟩
      rw [hr] at ht
      rw [hr'] at hs
      -- what is left to see is the answer: the children and the queue are settled
      have hfork : ∀ out, out.isValue = (release (waiting ++ out₁.values ++ out₂.values)).1.isValue →
          Stepped b (.either waiting t s) w (.event e) out
            (.either (release (waiting ++ out₁.values ++ out₂.values)).2 t' s') w'' :=
        fun out hout => .fork rfl ht hs hout
      rw [react, run_bind_of_run hr, run_bind_of_run hr']
      dsimp only
      cases hq : waiting ++ out₁.values ++ out₂.values with
      | cons v rest =>
        rw [hq] at hfork
        exact hfork (.value v) rfl
      | nil =>
        rw [hq] at hfork
        -- nothing held, nothing yielded: at most the event itself comes back
        refine hfork (if out₁.isEvent && out₂.isEvent then out₁ else .idle) ?_
        cases out₁ with
        | value v => simp at hq
        | idle => rfl
        | event e' => cases out₂ <;> rfl

/-- Every turn of a tree is one of these, whatever the world. -/
theorem turned_react (b : Behaviour L F (StateM ω)) {p q : Payload} (t : Tree L F p q)
    (input : Reaction p.Val) (w : ω) :
    Turned b t input ((t.react b input).run w).1.1 ((t.react b input).run w).1.2 :=
  (t.stepped_react b input w).turned

end Tree
end EventLoop

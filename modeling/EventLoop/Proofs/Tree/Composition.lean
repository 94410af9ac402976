import EventLoop.Proofs.Tree.Both
import EventLoop.Proofs.Tree.Grafting

/-!
# Compositions that do the same

The same parts can be put together in several ways.  How a chain is bracketed makes
no difference, a part that passes everything on makes none at the end of a chain,
two functions in a row are one function, a function behind a chain may as well stand
at the end of its second part, and a part whose make was chosen at run time behaves
as what is in it.  The parts may be anything that takes turns and the functions may
act on the world, so "no difference" is about whole sequences of inputs: what comes
out, what becomes of the world, and in which states the parts are left.

## Main definitions

* `Effect` — a function that acts on the world.
* `Tree.Agree` — two ways to build a tree from the same parts make no difference.
* `Tree.unboxed` — a tree without the boxes in it.
* `Named` — a part or a function of a tree under a name; its turns and applications are
  written down.
* `Tree.names` — the names in a tree, in the order in which their turns come.

## Main results

* `Matched.agree` — what makes no difference for one turn makes none for any inputs.
* `matched_chain_chain`, `matched_chain_consume`, `matched_map_map`, `matched_chain_map`,
  `matched_unboxed` — the laws for one turn.
* `Named.calls_of_stepped` — **in one turn of a tree each of its parts and functions has its
  turn at most once**, in the order of the tree.
* `compositions_agree` — all of it, for any parts, functions and inputs.
-/

namespace EventLoop

variable {L F : Payload → Payload → Type} {ω : Type} {p q r u : Payload}

namespace Reaction

variable {α β γ : Type}

/-- A reaction is a value, or it can be passed on. -/
theorem exists_eq_value_or (x : Reaction α) : (∃ v, x = .value v) ∨ x.isValue = false := by
  cases x with
  | idle => exact .inr rfl
  | event e => exact .inr rfl
  | value v => exact .inl ⟨v, rfl⟩

/-- What is passed on twice is passed on. -/
theorem pass_pass (x : Reaction α) : (x.pass : Reaction β).pass = (x.pass : Reaction γ) := by
  cases x <;> rfl

/-- To pass on what is no value changes nothing. -/
theorem pass_eq_self {x : Reaction α} (hx : x.isValue = false) : x.pass = x := by
  cases x with
  | idle => rfl
  | event e => rfl
  | value v => cases hx

end Reaction

/-! ### Functions that act on the world -/

/-- A function that acts on the world. -/
abbrev Effect (ω : Type) (p q : Payload) : Type := p.Val → StateM ω q.Val

/-- The leaves take turns of some kind, and functions act on the world as they are. -/
def Effect.behaviour (react : {p q : Payload} → L p q → Reaction p.Val →
    StateM ω (Reaction q.Val × L p q)) : Behaviour L (Effect ω) (StateM ω) where
  react := react
  apply f v := f v

/-- One function after the other. -/
def Effect.next (f : Effect ω p q) (g : Effect ω q r) : Effect ω p r := fun v => f v >>= g

/-! ### Two ways to build a tree -/

namespace Tree

/-- Two ways to build a tree from the same parts take the same turn: the same comes out, the world
is the same, and the parts are in the same states. -/
def Matched (b : Behaviour L F (StateM ω)) {σ : Type} (φ ψ : σ → Tree L F p q) : Prop :=
  ∀ (parts : σ) (input : Reaction p.Val) (w : ω), ∃ out parts' w',
    ((φ parts).react b input).run w = ((out, φ parts'), w') ∧
      ((ψ parts).react b input).run w = ((out, ψ parts'), w')

/-- Two ways to build a tree from the same parts make no difference, for any parts and any
inputs. -/
def Agree (b : Behaviour L F (StateM ω)) {σ : Type} (φ ψ : σ → Tree L F p q) : Prop :=
  ∀ (parts : σ) (inputs : List (Reaction p.Val)) (w : ω), ∃ outs parts' w',
    ((φ parts).feed b inputs).run w = ((outs, φ parts'), w') ∧
      ((ψ parts).feed b inputs).run w = ((outs, ψ parts'), w')

variable {b : Behaviour L F (StateM ω)}

theorem run_feed_cons {t t' t'' : Tree L F p q} {input : Reaction p.Val}
    {rest : List (Reaction p.Val)} {out : Reaction q.Val} {outs : List (Reaction q.Val)}
    {w w' w'' : ω} (h : (t.react b input).run w = ((out, t'), w'))
    (hrest : (t'.feed b rest).run w' = ((outs, t''), w'')) :
    (t.feed b (input :: rest)).run w = ((out :: outs, t''), w'') := by
  rw [feed, run_bind_of_run h]
  dsimp only
  rw [run_bind_of_run hrest]
  rfl

/-- What makes no difference for one turn makes none for any inputs. -/
theorem Matched.agree {σ : Type} {φ ψ : σ → Tree L F p q} (h : Matched b φ ψ) : Agree b φ ψ := by
  intro parts inputs
  induction inputs generalizing parts with
  | nil => exact fun w => ⟨[], parts, w, rfl, rfl⟩
  | cons input rest ih =>
    intro w
    obtain ⟨out, parts', w', hφ, hψ⟩ := h parts input w
    obtain ⟨outs, parts'', w'', hφ', hψ'⟩ := ih parts' w'
    exact ⟨out :: outs, parts'', w'', run_feed_cons hφ hφ', run_feed_cons hψ hψ'⟩

/-! ### The laws for one turn -/

/-- The brackets of a chain make no difference. -/
theorem matched_chain_chain (b : Behaviour L F (StateM ω)) :
    Matched b (fun x : Tree L F p q × Tree L F q r × Tree L F r u => .chain (.chain x.1 x.2.1) x.2.2)
      (fun x => .chain x.1 (.chain x.2.1 x.2.2)) := by
  rintro ⟨s, t, c⟩ input w
  rcases hs : (s.react b input).run w with ⟨⟨out, s'⟩, w₁⟩
  obtain ⟨v, rfl⟩ | hout := out.exists_eq_value_or
  · rcases ht : (t.react b (.value v)).run w₁ with ⟨⟨out, t'⟩, w₂⟩
    have hfirst := run_react_cross hs ht
    -- the last stage has a turn only if both before it yielded
    obtain ⟨v', rfl⟩ | hout := out.exists_eq_value_or
    · rcases hc : (c.react b (.value v')).run w₂ with ⟨⟨out, c'⟩, w₃⟩
      exact ⟨out, (s', t', c'), w₃, run_react_cross hfirst hc,
        run_react_cross hs (run_react_cross ht hc)⟩
    · exact ⟨out.pass, (s', t', c), w₂, run_react_stay hfirst hout c,
        run_react_cross hs (run_react_stay ht hout c)⟩
  · -- nothing crosses over, and neither of the others has a turn
    have hfirst := run_react_stay hs hout t
    have hpass := run_react_stay hfirst out.isValue_pass c
    rw [out.pass_pass] at hpass
    exact ⟨out.pass, (s', t, c), w₁, hpass, run_react_stay hs hout (.chain t c)⟩

/-- A part that passes everything on makes no difference at the end of a chain. -/
theorem matched_chain_consume (b : Behaviour L F (StateM ω)) :
    Matched b (fun t : Tree L F p q => .chain t .consume) (fun t => t) := by
  intro t input w
  rcases ht : (t.react b input).run w with ⟨⟨out, t'⟩, w'⟩
  refine ⟨out, t', w', ?_, rfl⟩
  obtain ⟨v, rfl⟩ | hout := out.exists_eq_value_or
  · exact run_react_cross ht rfl
  · have hstay := run_react_stay ht hout .consume
    rwa [Reaction.pass_eq_self hout] at hstay

/-- Two functions in a row are one function. -/
theorem matched_map_map {f : F q r} {g : F r u} {k : F q u}
    (hk : ∀ v, b.apply k v = b.apply f v >>= b.apply g) :
    Matched b (fun t : Tree L F p q => .map (.map t f) g) (fun t => .map t k) := by
  intro t input w
  rcases ht : (t.react b input).run w with ⟨⟨out, t'⟩, w₁⟩
  obtain ⟨v, rfl⟩ | hout := out.exists_eq_value_or
  · rcases hf : (b.apply f v).run w₁ with ⟨x, w₂⟩
    rcases hg : (b.apply g x).run w₂ with ⟨y, w₃⟩
    -- one function applied to the value is the two of them in turn
    have hboth : (b.apply k v).run w₁ = (y, w₃) := by
      rw [hk, run_bind_of_run hf, hg]
    exact ⟨.value y, t', w₃, run_react_mapped (run_react_mapped ht hf) hg,
      run_react_mapped ht hboth⟩
  · have hfirst := run_react_unmapped ht hout f
    have hpass := run_react_unmapped hfirst out.isValue_pass g
    rw [out.pass_pass] at hpass
    exact ⟨out.pass, t', w₁, hpass, run_react_unmapped ht hout k⟩

/-- A function behind a chain is a function behind its second part. -/
theorem matched_chain_map (b : Behaviour L F (StateM ω)) (f : F r u) :
    Matched b (fun x : Tree L F p q × Tree L F q r => .chain x.1 (.map x.2 f))
      (fun x => .map (.chain x.1 x.2) f) := by
  rintro ⟨s, t⟩ input w
  rcases hs : (s.react b input).run w with ⟨⟨out, s'⟩, w₁⟩
  obtain ⟨v, rfl⟩ | hout := out.exists_eq_value_or
  · rcases ht : (t.react b (.value v)).run w₁ with ⟨⟨out, t'⟩, w₂⟩
    have hchain := run_react_cross hs ht
    obtain ⟨v', rfl⟩ | hout := out.exists_eq_value_or
    · rcases hf : (b.apply f v').run w₂ with ⟨x, w₃⟩
      exact ⟨.value x, (s', t'), w₃, run_react_cross hs (run_react_mapped ht hf),
        run_react_mapped hchain hf⟩
    · exact ⟨out.pass, (s', t'), w₂, run_react_cross hs (run_react_unmapped ht hout f),
        run_react_unmapped hchain hout f⟩
  -- nothing crosses over: the mapped stage has no turn on either side
  · have hchain := run_react_stay hs hout t
    have hpass := run_react_unmapped hchain out.isValue_pass f
    rw [out.pass_pass] at hpass
    exact ⟨out.pass, (s', t), w₁, run_react_stay hs hout (.map t f), hpass⟩

/-! ### Boxes -/

/-- The tree without the boxes in it. -/
def unboxed {p q : Payload} : Tree L F p q → Tree L F p q
  | .leaf l => .leaf l
  | .consume => .consume
  | .boxed content => content.unboxed
  | .chain first second => .chain first.unboxed second.unboxed
  | .map source f => .map source.unboxed f
  | .both label join waiting first second =>
    .both label join waiting first.unboxed second.unboxed
  | .either waiting first second => .either waiting first.unboxed second.unboxed

/-- A turn without the boxes, in any monad. -/
theorem react_unboxed {m : Type → Type} [Monad m] [LawfulMonad m] (b : Behaviour L F m)
    {p q : Payload} (t : Tree L F p q) : ∀ input : Reaction p.Val,
      t.unboxed.react b input = (fun x => (x.1, x.2.unboxed)) <$> t.react b input := by
  induction t with
  | leaf l =>
    intro input
    simp [unboxed, react]
  | consume =>
    intro input
    simp [unboxed, react]
  | boxed t ih =>
    intro input
    simp [unboxed, react, ih]
  | chain t s iht ihs =>
    intro input
    simp only [unboxed, react, iht, bind_map_left, map_bind]
    refine bind_congr fun x => ?_
    obtain ⟨out, t'⟩ := x
    cases out <;> simp [ihs, unboxed]
  | map t f ih =>
    intro input
    simp only [unboxed, react, ih, bind_map_left, map_bind]
    refine bind_congr fun x => ?_
    obtain ⟨out, t'⟩ := x
    cases out <;> simp [unboxed]
  | both label join waiting t s iht ihs =>
    intro input
    simp [unboxed, react, iht, ihs]
  | either waiting t s iht ihs =>
    intro input
    cases input with
    | value v => cases v <;> simp [unboxed, react, iht, ihs]
    | idle => simp [unboxed, react, iht, ihs]
    | event e =>
      simp only [unboxed, react, iht, ihs, bind_map_left, map_bind]
      refine bind_congr fun x => bind_congr fun y => ?_
      cases waiting ++ x.1.values ++ y.1.values <;> simp [unboxed]

/-- Boxes make no difference, wherever they are in a tree. -/
theorem matched_unboxed (b : Behaviour L F (StateM ω)) :
    Matched b (fun t : Tree L F p q => t) unboxed := by
  intro t input w
  rcases ht : (t.react b input).run w with ⟨⟨out, t'⟩, w'⟩
  refine ⟨out, t', w', rfl, ?_⟩
  rw [react_unboxed]
  show ((((t.react b input).run w).1.1, ((t.react b input).run w).1.2.unboxed),
    ((t.react b input).run w).2) = _
  rw [ht]

end Tree

/-! ### Who has a turn -/

/-- A part or a function of a tree under a name. -/
structure Named (ι : Type) (T : Payload → Payload → Type) (p q : Payload) where
  /-- The name. -/
  name : ι
  /-- What has it. -/
  content : T p q

namespace Named

variable {ι : Type}

/-- Parts have their turns and functions are applied as ever, and each time the name is written
down. -/
def behaviour (ι : Type) (b : Behaviour L F (StateM ω)) :
    Behaviour (Named ι (Tree L F)) (Named ι F) (StateM (ω × List ι)) where
  react l input := fun (w, calls) =>
    let ((out, content), w) := (l.content.react b input).run w
    ((out, { l with content }), w, calls ++ [l.name])
  apply f v := fun (w, calls) =>
    let (x, w) := (b.apply f.content v).run w
    (x, w, calls ++ [f.name])

end Named

namespace Tree

variable {ι : Type}

/-- The names in a tree, in the order in which their turns come. -/
def names {p q : Payload} : Tree (Named ι (Tree L F)) (Named ι F) p q → List ι
  | .leaf l => [l.name]
  | .consume => []
  | .boxed content => content.names
  | .chain first second => first.names ++ second.names
  | .map source f => source.names ++ [f.name]
  | .both _ _ _ first second => first.names ++ second.names
  | .either _ first second => first.names ++ second.names

/-- The tree without the names in it. -/
def unnamed (t : Tree (Named ι (Tree L F)) (Named ι F) p q) : Tree L F p q :=
  t.graft Named.content Named.content

end Tree

namespace Named

variable {ι : Type} {b : Behaviour L F (StateM ω)}

/-- To write down who has a turn changes nothing. -/
theorem run_react_unnamed (t : Tree (Named ι (Tree L F)) (Named ι F) p q)
    (input : Reaction p.Val) (w : ω × List ι) :
    (t.unnamed.react b input).run w.1 = ((((t.react (behaviour ι b) input).run w).1.1,
      ((t.react (behaviour ι b) input).run w).1.2.unnamed),
        ((t.react (behaviour ι b) input).run w).2.1) :=
  Tree.run_react_graft (b := behaviour ι b) (ψ := Prod.fst) (fun _ _ _ => rfl)
    (fun _ _ _ => rfl) t input w

/-- **In one turn each part and each function of a tree has its turn at most once**, in the order
of the tree.  The names stay where they are. -/
theorem calls_of_stepped {t t' : Tree (Named ι (Tree L F)) (Named ι F) p q}
    {input : Reaction p.Val} {out : Reaction q.Val} {w w' : ω × List ι}
    (h : Stepped (behaviour ι b) t w input out t' w') :
    t'.names = t.names ∧ ∃ calls, calls.Sublist t.names ∧ w'.2 = w.2 ++ calls := by
  -- on the derivation: each part has at most one turn, so its names are called at most once
  induction h with
  | @leaf p q l l' w w' input out h =>
    cases h
    exact ⟨rfl, [l.name], .refl _, rfl⟩
  | consume w input => exact ⟨rfl, [], .refl _, (List.append_nil _).symm⟩
  | boxed _ ih => exact ih
  | cross _ _ iht ihs =>
    obtain ⟨htnames, c₁, hc₁, hw₁⟩ := iht
    obtain ⟨hsnames, c₂, hc₂, hw₂⟩ := ihs
    refine ⟨congrArg₂ (· ++ ·) htnames hsnames, c₁ ++ c₂, hc₁.append hc₂, ?_⟩
    rw [hw₂, hw₁, List.append_assoc]
  -- the second stage is not called
  | stay _ _ ih =>
    obtain ⟨htnames, c, hc, hw⟩ := ih
    exact ⟨congrArg (· ++ _) htnames, c, hc.trans (List.sublist_append_left _ _), hw⟩
  | @mapped p q r t t' f w w₁ w₂ input v x _ hf ih =>
    obtain ⟨htnames, c, hc, hw⟩ := ih
    refine ⟨congrArg (· ++ [f.name]) htnames, c ++ [f.name], hc.append (.refl _), ?_⟩
    cases hf
    show w₁.2 ++ [f.name] = _
    rw [hw, List.append_assoc]
  | unmapped _ _ ih =>
    obtain ⟨htnames, c, hc, hw⟩ := ih
    exact ⟨congrArg (· ++ _) htnames, c, hc.trans (List.sublist_append_left _ _), hw⟩
  | both _ _ iht ihs =>
    obtain ⟨htnames, c₁, hc₁, hw₁⟩ := iht
    obtain ⟨hsnames, c₂, hc₂, hw₂⟩ := ihs
    refine ⟨congrArg₂ (· ++ ·) htnames hsnames, c₁ ++ c₂, hc₁.append hc₂, ?_⟩
    rw [hw₂, hw₁, List.append_assoc]
  | left _ ih =>
    obtain ⟨htnames, c, hc, hw⟩ := ih
    exact ⟨congrArg (· ++ _) htnames, c, hc.trans (List.sublist_append_left _ _), hw⟩
  | right _ ih =>
    obtain ⟨hsnames, c, hc, hw⟩ := ih
    exact ⟨congrArg (_ ++ ·) hsnames, c, hc.trans (List.sublist_append_right _ _), hw⟩
  | fork _ _ _ _ iht ihs =>
    obtain ⟨htnames, c₁, hc₁, hw₁⟩ := iht
    obtain ⟨hsnames, c₂, hc₂, hw₂⟩ := ihs
    refine ⟨congrArg₂ (· ++ ·) htnames hsnames, c₁ ++ c₂, hc₁.append hc₂, ?_⟩
    rw [hw₂, hw₁, List.append_assoc]

/-- Nor does it change anything over any inputs. -/
theorem run_feed_unnamed (inputs : List (Reaction p.Val)) :
    ∀ (t : Tree (Named ι (Tree L F)) (Named ι F) p q) (w : ω × List ι),
      (t.unnamed.feed b inputs).run w.1 = ((((t.feed (behaviour ι b) inputs).run w).1.1,
        ((t.feed (behaviour ι b) inputs).run w).1.2.unnamed),
          ((t.feed (behaviour ι b) inputs).run w).2.1) := by
  induction inputs with
  | nil => exact fun _ _ => rfl
  | cons input rest ih =>
    intro t w
    have hturn := run_react_unnamed (b := b) t input w
    rcases hr : (t.react (behaviour ι b) input).run w with ⟨⟨out, t'⟩, w'⟩
    rw [hr] at hturn
    rw [Tree.feed, Tree.feed, Tree.run_bind_of_run hturn, Tree.run_bind_of_run hr]
    dsimp only
    rw [Tree.run_bind_of_run (ih t' w')]
    rfl

theorem names_feed (inputs : List (Reaction p.Val)) :
    ∀ (t : Tree (Named ι (Tree L F)) (Named ι F) p q) (w : ω × List ι),
      ((t.feed (behaviour ι b) inputs).run w).1.2.names = t.names := by
  induction inputs with
  | nil => exact fun _ _ => rfl
  | cons input rest ih =>
    intro t w
    obtain ⟨hnames, -⟩ := calls_of_stepped (t.stepped_react (behaviour ι b) input w)
    have hrest := ih ((t.react (behaviour ι b) input).run w).1.2
      ((t.react (behaviour ι b) input).run w).2
    -- a turn renames nothing, so the names are those of the first tree
    exact hrest.trans hnames

end Named

/-- **Compositions that do the same**, for leaves of any kind, parts in any state, functions that
act on the world in any way, and any inputs: the two sides give the same, leave the same world and
leave their parts in the same states.  After any inputs, the next one gives each named part and
function of a tree a turn at most once, in the order of the tree; and to write that down changes
nothing of what the tree does. -/
theorem compositions_agree (react : {p q : Payload} → L p q → Reaction p.Val →
    StateM ω (Reaction q.Val × L p q)) (p q r u : Payload) :
    let b := Effect.behaviour react
    Tree.Agree b
        (fun x : Tree L (Effect ω) p q × Tree L (Effect ω) q r × Tree L (Effect ω) r u =>
          .chain (.chain x.1 x.2.1) x.2.2)
        (fun x => .chain x.1 (.chain x.2.1 x.2.2)) ∧
      Tree.Agree b (fun t : Tree L (Effect ω) p q => .chain t .consume) (fun t => t) ∧
      (∀ (f : Effect ω q r) (g : Effect ω r u), Tree.Agree b
        (fun t : Tree L (Effect ω) p q => .map (.map t f) g) (fun t => .map t (f.next g))) ∧
      (∀ f : Effect ω r u, Tree.Agree b
        (fun x : Tree L (Effect ω) p q × Tree L (Effect ω) q r => .chain x.1 (.map x.2 f))
        (fun x => .map (.chain x.1 x.2) f)) ∧
      Tree.Agree b (fun t : Tree L (Effect ω) p q => t) Tree.unboxed ∧
      ∀ (ι : Type) (t : Tree (Named ι (Tree L (Effect ω))) (Named ι (Effect ω)) p q)
        (inputs : List (Reaction p.Val)) (input : Reaction p.Val) (w : ω),
        let before := (t.feed (Named.behaviour ι b) inputs).run (w, [])
        (t.unnamed.feed b inputs).run w = ((before.1.1, before.1.2.unnamed), before.2.1) ∧
          ∃ calls, calls.Sublist t.names ∧
            ((before.1.2.react (Named.behaviour ι b) input).run before.2).2.2
              = before.2.2 ++ calls := by
  intro b
  refine ⟨(Tree.matched_chain_chain b).agree, (Tree.matched_chain_consume b).agree,
    fun f g => (Tree.matched_map_map fun _ => rfl).agree,
    fun f => (Tree.matched_chain_map b f).agree, (Tree.matched_unboxed b).agree, ?_⟩
  intro ι t inputs input w before
  refine ⟨Named.run_feed_unnamed inputs t (w, []), ?_⟩
  -- the one turn behind the prefix, read off as a derivation
  have hstep := before.1.2.stepped_react (Named.behaviour ι b) input before.2
  obtain ⟨-, calls, hcalls, hlog⟩ := Named.calls_of_stepped hstep
  have hnames : before.1.2.names = t.names := Named.names_feed inputs t (w, [])
  rw [hnames] at hcalls
  exact ⟨calls, hcalls, hlog⟩

end EventLoop

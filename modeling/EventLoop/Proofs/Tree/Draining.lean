import EventLoop.Proofs.System.Dispatch

/-!
# The loop drains its root

After an event the loop gives its root turns without input until no value comes
out.  In a tree that drains, nothing is held then.

## Main definitions

* `Tree.Steady` — the state of a tree between two of these turns.
* `Tree.ChainsDrained` — nothing is held in the chains of a tree.

## Main results

* `Turned.steady` — **a turn without a value, of a tree that drains, either gives
  a value or leaves nothing behind.**
* `Turned.drained_iff` — what is left behind in any other tree is in its chains.
* `Turn.last_turn` — a dispatch ends with a turn that gives no value.
* `Turn.drained_of_dispatch` — **once an event is dispatched, only chains hold
  values, and a tree that drains holds none.**
-/

namespace EventLoop

variable {L F : Payload → Payload → Type} {σ ω : Type} {p q : Payload}

namespace Tree

/-- What is held in a tree is going to come out: second parts of chains hold nothing, first
parts only what the second will not swallow, and a queue is not empty only if one of its parts
may have fed it. -/
def Steady (c : Traits L) {p q : Payload} : Tree L F p q → Prop
  | .leaf _ => True
  | .consume => True
  | .boxed t => t.Steady c
  | .chain t s => t.Steady c ∧ s.Drained ∧ (s.insists c = true ∨ t.Drained)
  | .map t _ => t.Steady c
  | .both _ _ waiting t s => t.Steady c ∧ s.Steady c ∧
    (waiting = [] ∨ (t.gives c .signal || s.gives c .signal) = true)
  | .either waiting t s => t.Steady c ∧ s.Steady c ∧
    (waiting = [] ∨ (t.gives c .signal || s.gives c .signal) = true)

/-- Nothing is held in the chains of a tree. -/
def ChainsDrained {p q : Payload} : Tree L F p q → Prop
  | .leaf _ => True
  | .consume => True
  | .boxed t => t.ChainsDrained
  | .chain t s => t.Drained ∧ s.Drained
  | .map t _ => t.ChainsDrained
  | .both _ _ _ t s => t.ChainsDrained ∧ s.ChainsDrained
  | .either _ t s => t.ChainsDrained ∧ s.ChainsDrained

theorem steady_of_drained (c : Traits L) {p q : Payload} (t : Tree L F p q) (ht : t.Drained) :
    t.Steady c := by
  induction t with
  | leaf l => trivial
  | consume => trivial
  | boxed t ih => exact ih ht
  | chain t s iht ihs =>
    obtain ⟨ht, hs⟩ := drained_chain.mp ht
    exact ⟨iht ht, hs, Or.inr ht⟩
  | map t f ih => exact ih ht
  | both label join waiting t s iht ihs =>
    obtain ⟨hw, ht, hs⟩ := drained_both.mp ht
    exact ⟨iht ht, ihs hs, Or.inl hw⟩
  | either waiting t s iht ihs =>
    obtain ⟨hw, ht, hs⟩ := drained_either.mp ht
    exact ⟨iht ht, ihs hs, Or.inl hw⟩

/-- A queue that may have been fed: what comes out and what stays. -/
theorem release_steady {α : Type} {waiting : List α} {x y : Reaction α} {g : Bool}
    (hw : waiting = [] ∨ g = true) (hx : x.isValue = true → g = true)
    (hy : y.isValue = true → g = true) :
    ((release (waiting ++ x.values ++ y.values)).1.isValue = true → g = true) ∧
      ((release (waiting ++ x.values ++ y.values)).2 = [] ∨ g = true) := by
  cases hg : g with
  | true => exact ⟨fun _ => rfl, Or.inr rfl⟩
  | false =>
    have hnone : ∀ {z : Reaction α}, (z.isValue = true → g = true) → z.values = [] := by
      intro z hz
      rw [Reaction.values_eq_nil_iff, ← Bool.not_eq_true]
      intro h
      rw [hz h] at hg
      cases hg
    have hwait : waiting = [] := by
      rcases hw with hw | h
      · exact hw
      · rw [h] at hg
        cases hg
    rw [hwait, hnone hx, hnone hy]
    exact ⟨nofun, Or.inl rfl⟩

end Tree

namespace Turned

variable {b : Behaviour L F (StateM ω)} {c : Traits L} {t t' : Tree L F p q}
  {input : Reaction p.Val} {out : Reaction q.Val}

/-- **A turn without a value, of a tree that drains, either gives a value or leaves nothing
behind.** -/
theorem steady (hc : Conduct b c) (h : Turned b t input out t') (hin : input.isValue = false)
    (ht : t.Steady c) (hd : t.drains c = true) :
    t'.Steady c ∧ (out.isValue = true → t.gives c .signal = true) ∧
      (out.isValue = false → t'.Drained) := by
  induction h with
  | @leaf p q l l' input out w w' h =>
    have hfresh := fresh hc (.leaf h) (Tree.drained_leaf l)
    rw [Reaction.drive_of_not_isValue hin] at hfresh
    exact ⟨trivial, hfresh.1, fun _ => Tree.drained_leaf l'⟩
  | consume input =>
    refine ⟨trivial, fun hout => ?_, fun _ => Tree.drained_consume⟩
    rw [hin] at hout
    cases hout
  | boxed _ ih => exact ih hin ht hd
  | @cross p q r t t' s s' input v out h₁ h₂ iht ihs =>
    obtain ⟨ht, hs, hkeep⟩ := ht
    obtain ⟨hdt, hrest⟩ := Bool.and_eq_true_iff.mp hd
    obtain ⟨hst, hgt, -⟩ := iht hin ht hdt
    have hgive := hgt rfl
    rw [hgive, Bool.not_true, Bool.false_or] at hrest
    obtain ⟨hclear, hlast⟩ := Bool.and_eq_true_iff.mp hrest
    obtain ⟨hgs, hcs⟩ := fresh hc h₂ hs
    have hs' : s'.Drained := hcs hclear
    -- if the second part may swallow a value, the first holds none
    have hkeep' : s'.insists c = true ∨ t'.Drained := by
      rcases Bool.or_eq_true_iff.mp hlast with hins | hct
      · exact Or.inl ((h₂.alike hc).insists_eq.trans hins)
      · rcases hkeep with hins | htd
        · exact Or.inl ((h₂.alike hc).insists_eq.trans hins)
        · refine Or.inr ((fresh hc h₁ htd).2 ?_)
          rw [Reaction.drive_of_not_isValue hin]
          exact hct
    refine ⟨⟨hst, hs', hkeep'⟩, fun hout => ?_, fun hout => ?_⟩
    · exact Bool.and_eq_true_iff.mpr ⟨hgive, hgs hout⟩
    · refine Tree.drained_chain.mpr ⟨?_, hs'⟩
      rcases hkeep' with hins | htd
      · rw [(h₂.alike hc).insists_eq] at hins
        rw [h₂.isValue_of_insists hc rfl hins] at hout
        cases hout
      · exact htd
  | stay _ hno iht =>
    obtain ⟨ht, hs, -⟩ := ht
    obtain ⟨hst, -, hdr⟩ := iht hin ht (Bool.and_eq_true_iff.mp hd).1
    refine ⟨⟨hst, hs, Or.inr (hdr hno)⟩, fun hout => ?_, fun _ => ?_⟩
    · rw [Reaction.isValue_pass] at hout
      cases hout
    · exact Tree.drained_chain.mpr ⟨hdr hno, hs⟩
  | mapped _ w ih =>
    obtain ⟨hst, hgt, -⟩ := ih hin ht hd
    exact ⟨hst, fun _ => hgt rfl, nofun⟩
  | unmapped _ hno ih =>
    obtain ⟨hst, -, hdr⟩ := ih hin ht hd
    refine ⟨hst, fun hout => ?_, fun _ => hdr hno⟩
    rw [Reaction.isValue_pass] at hout
    cases hout
  | @both p q₁ q₂ r label join waiting t t' s s' input out₁ out₂ h₁ h₂ iht ihs =>
    obtain ⟨ht, hs, hw⟩ := ht
    obtain ⟨hdt, hds⟩ := Bool.and_eq_true_iff.mp hd
    obtain ⟨hst, hgt, hrt⟩ := iht hin ht hdt
    obtain ⟨hss, hgs, hrs⟩ := ihs hin hs hds
    rw [← Reaction.isValue_map join.first] at hgt hrt
    rw [← Reaction.isValue_map join.second] at hgs hrs
    obtain ⟨hgive, hstay⟩ := Tree.release_steady hw (fun h => Bool.or_eq_true_iff.mpr (.inl (hgt h)))
      (fun h => Bool.or_eq_true_iff.mpr (.inr (hgs h)))
    refine ⟨⟨hst, hss, ?_⟩, hgive, fun hout => ?_⟩
    · rw [(h₁.alike hc).gives_eq, (h₂.alike hc).gives_eq]
      exact hstay
    · obtain ⟨hx, hy, hrest⟩ := Tree.release_none hout
      exact Tree.drained_both.mpr ⟨hrest, hrt hx, hrs hy⟩
  -- only a value takes one side of an `either`
  | left _ _ => cases hin
  | right _ _ => cases hin
  | fork _ h₁ h₂ hval iht ihs =>
    obtain ⟨ht, hs, hw⟩ := ht
    obtain ⟨hdt, hds⟩ := Bool.and_eq_true_iff.mp hd
    obtain ⟨hst, hgt, hrt⟩ := iht (Reaction.isValue_pass _) ht hdt
    obtain ⟨hss, hgs, hrs⟩ := ihs (Reaction.isValue_pass _) hs hds
    obtain ⟨hgive, hstay⟩ := Tree.release_steady hw (fun h => Bool.or_eq_true_iff.mpr (.inl (hgt h)))
      (fun h => Bool.or_eq_true_iff.mpr (.inr (hgs h)))
    rw [← hval] at hgive
    refine ⟨⟨hst, hss, ?_⟩, hgive, fun hout => ?_⟩
    · rw [(h₁.alike hc).gives_eq, (h₂.alike hc).gives_eq]
      exact hstay
    · obtain ⟨hx, hy, hrest⟩ := Tree.release_none (hval.symm.trans hout)
      exact Tree.drained_either.mpr ⟨hrest, hrt hx, hrs hy⟩

/-- After a turn that neither takes nor gives a value, only chains hold values. -/
theorem drained_iff (h : Turned b t input out t') (hin : input.isValue = false)
    (hout : out.isValue = false) : t'.Drained ↔ t'.ChainsDrained := by
  induction h with
  | @leaf p q l l' input out w w' h => exact ⟨fun _ => trivial, fun _ => Tree.drained_leaf l'⟩
  | consume input => exact ⟨fun _ => trivial, fun _ => Tree.drained_consume⟩
  | boxed _ ih => exact ih hin hout
  | cross _ _ _ _ => exact Tree.drained_chain
  | stay _ _ _ => exact Tree.drained_chain
  | mapped _ w ih => cases hout
  | unmapped _ hno ih => exact ih hin hno
  | @both p q₁ q₂ r label join waiting t t' s s' input out₁ out₂ h₁ h₂ iht ihs =>
    obtain ⟨hx, hy, hrest⟩ := Tree.release_none hout
    rw [Reaction.isValue_map] at hx hy
    rw [Tree.drained_both, iht hin hx, ihs hin hy]
    exact ⟨And.right, fun h => ⟨hrest, h⟩⟩
  | left _ _ => cases hin
  | right _ _ => cases hin
  | fork _ h₁ h₂ hval iht ihs =>
    obtain ⟨hx, hy, hrest⟩ := Tree.release_none (hval.symm.trans hout)
    rw [Tree.drained_either, iht (Reaction.isValue_pass _) hx, ihs (Reaction.isValue_pass _) hy]
    exact ⟨And.right, fun h => ⟨hrest, h⟩⟩

end Turned

/-! ### Dispatching -/

namespace Turn

variable {b : Behaviour L F (StateM ω)} {c : Traits L} {join : σ → Loop → ω}
  {split : ω → σ × Loop}

/-- A turn of a tree as a root is a turn of the tree. -/
theorem turned_ofTree (b : Behaviour L F (StateM ω)) (join : σ → Loop → ω)
    (split : ω → σ × Loop) (input : Reaction p.Val) (r : Tree L F p q × σ) (l : Loop) :
    Turned b r.1 input ((ofTree b join split (q := q) input).run (r, l)).1
      ((ofTree b join split (q := q) input).run (r, l)).2.1.1 :=
  r.1.turned_react b input (join r.2 l)

/-- The end of a dispatch, under an invariant of the turns without a value. -/
theorem last_turn_of_redrive (P : Tree L F p q → Prop)
    (hP : ∀ t t' input out, input.isValue = false → Turned b t input out t' → P t → P t') (n : Nat) :
    ∀ (r : Tree L F p q × σ) (l : Loop), P r.1 →
      ((redrive (ofTree b join split) n).run (r, l)).1 = true →
      ∃ t input out, P t ∧ input.isValue = false ∧ out.isValue = false ∧
        Turned b t input out ((redrive (ofTree b join split) n).run (r, l)).2.1.1 := by
  induction n with
  | zero =>
    intro r l _ hend
    cases hend
  | succ n ih =>
    intro r l hr hend
    have hnote : (note .valueDropped : Turn (Tree L F p q × σ) Unit).run (r, l)
        = ((), r, l.note .valueDropped) := rfl
    have hturn := turned_ofTree b join split .idle r (l.note .valueDropped)
    rcases hrun : (ofTree b join split (q := q) .idle).run (r, l.note .valueDropped)
      with ⟨out, r', l'⟩
    rw [hrun] at hturn
    unfold redrive at hend ⊢
    rw [Tree.run_bind_of_run hnote, Tree.run_bind_of_run hrun] at hend ⊢
    cases out with
    -- a value is dropped, and the invariant goes on to the next turn
    | value v => exact ih r' l' (hP _ _ _ _ rfl hturn hr) hend
    | idle => exact ⟨r.1, .idle, .idle, hr, rfl, rfl, hturn⟩
    | event e => exact ⟨r.1, .idle, .event e, hr, rfl, rfl, hturn⟩

/-- A dispatch that comes to an end does so with a turn that gives no value. -/
theorem last_turn (P : Tree L F p q → Prop)
    (hP : ∀ t t' input out, input.isValue = false → Turned b t input out t' → P t → P t') (e : Event)
    (n : Nat) (r : Tree L F p q × σ) (l : Loop) (hr : P r.1)
    (hend : ((dispatch (ofTree b join split) n e).run (r, l)).1 = true) :
    ∃ t input out, P t ∧ input.isValue = false ∧ out.isValue = false ∧
      Turned b t input out ((dispatch (ofTree b join split) n e).run (r, l)).2.1.1 := by
  have hturn := turned_ofTree b join split (.event e) r l
  rcases hrun : (ofTree b join split (q := q) (.event e)).run (r, l) with ⟨out, r', l'⟩
  rw [hrun] at hturn
  unfold dispatch at hend ⊢
  rw [Tree.run_bind_of_run hrun] at hend ⊢
  cases out with
  | value v => exact last_turn_of_redrive P hP n r' l' (hP _ _ _ _ rfl hturn hr) hend
  | idle => exact ⟨r.1, .event e, .idle, hr, rfl, rfl, hturn⟩
  | event e' => exact ⟨r.1, .event e, .event e', hr, rfl, rfl, hturn⟩

/-- **Once an event is dispatched, only chains hold values.**  If the root held nothing before,
and drains, it holds nothing. -/
theorem drained_of_dispatch (hc : Conduct b c) (e : Event) (n : Nat) (t : Tree L F p q) (s : σ)
    (l : Loop) (hend : ((dispatch (ofTree b join split) n e).run ((t, s), l)).1 = true) :
    (((dispatch (ofTree b join split) n e).run ((t, s), l)).2.1.1.Drained ↔
      ((dispatch (ofTree b join split) n e).run ((t, s), l)).2.1.1.ChainsDrained) ∧
    (t.drains c = true → t.Drained →
      ((dispatch (ofTree b join split) n e).run ((t, s), l)).2.1.1.Drained) := by
  constructor
  · obtain ⟨t₀, input, out, -, hin, hout, hturn⟩ :=
      last_turn (fun _ => True) (fun _ _ _ _ _ _ _ => trivial) e n (t, s) l trivial hend
    exact hturn.drained_iff hin hout
  · intro hd ht
    have hP : ∀ (t t' : Tree L F p q) input out, input.isValue = false →
        Turned b t input out t' → t.Steady c ∧ t.drains c = true →
        t'.Steady c ∧ t'.drains c = true := fun t t' input out hin h ⟨hst, hd⟩ =>
      ⟨(h.steady hc hin hst hd).1, (h.alike hc).drains_eq.trans hd⟩
    -- a tree that holds nothing is steady, and stays so up to the last turn
    obtain ⟨t₀, input, out, ⟨hst, hd₀⟩, hin, hout, hturn⟩ :=
      last_turn _ hP e n (t, s) l ⟨t.steady_of_drained c ht, hd⟩ hend
    exact (hturn.steady hc hin hst hd₀).2.2 hout

/-! ### What stays behind -/

variable {r : Payload} {t t' : Tree L F p q} {s s' : Tree L F q r} {input : Reaction p.Val}
  {v : q.Val} {out : Reaction r.Val} {w w₁ w₂ : ω} {x : σ} {l : Loop} {e : Event}

/-- **What the first part of a chain holds stays behind when the second swallows a value.** -/
theorem stranded_first (h₁ : (t.react b (.event e)).run (join x l) = ((.value v, t'), w₁))
    (h₂ : (s.react b (.value v)).run w₁ = ((out, s'), w₂)) (ht : ¬ t'.Drained)
    (hout : out.isValue = false) (n : Nat) :
    ((dispatch (ofTree b join split) n e).run ((Tree.chain t s, x), l)).1 = true ∧
      ¬ ((dispatch (ofTree b join split) n e).run ((Tree.chain t s, x), l)).2.1.1.Drained := by
  have hrun := run_ofTree split (Tree.run_react_cross h₁ h₂)
  unfold dispatch
  rw [Tree.run_bind_of_run hrun]
  have hnot : ¬ (Tree.chain t' s').Drained := fun h => ht (Tree.drained_chain.mp h).1
  cases out with
  | value u => cases hout
  | idle => exact ⟨rfl, hnot⟩
  | event e' => exact ⟨rfl, hnot⟩

/-- **What the second part of a chain holds stays behind when the first gives one value only.** -/
theorem stranded_second (h₁ : (t.react b (.event e)).run (join x l) = ((.value v, t'), w₁))
    (h₂ : (s.react b (.value v)).run w₁ = ((out, s'), w₂)) (hs : ¬ s'.Drained)
    (hlast : ((t'.react b .idle).run
      (join (split w₂).1 ((split w₂).2.note .valueDropped))).1.1.isValue = false) (n : Nat) :
    ((dispatch (ofTree b join split) (n + 1) e).run ((Tree.chain t s, x), l)).1 = true ∧
      ¬ ((dispatch (ofTree b join split) (n + 1) e).run
        ((Tree.chain t s, x), l)).2.1.1.Drained := by
  have hrun := run_ofTree split (Tree.run_react_cross h₁ h₂)
  unfold dispatch
  rw [Tree.run_bind_of_run hrun]
  cases out with
  | idle => exact ⟨rfl, fun h => hs (Tree.drained_chain.mp h).2⟩
  | event e' => exact ⟨rfl, fun h => hs (Tree.drained_chain.mp h).2⟩
  | value u =>
    have hnote : (note .valueDropped : Turn (Tree L F p r × σ) Unit).run
        ((Tree.chain t' s', (split w₂).1), (split w₂).2)
          = ((), (Tree.chain t' s', (split w₂).1), (split w₂).2.note .valueDropped) := rfl
    rcases hr : (t'.react b .idle).run (join (split w₂).1 ((split w₂).2.note .valueDropped))
      with ⟨⟨o, t''⟩, w₃⟩
    rw [hr] at hlast
    -- the turn without input ends at the first part: the second is not asked
    have hrun' := run_ofTree split (Tree.run_react_stay hr hlast s')
    dsimp only [redrive]
    rw [Tree.run_bind_of_run hnote, Tree.run_bind_of_run hrun']
    have hnot : ¬ (Tree.chain t'' s').Drained := fun h => hs (Tree.drained_chain.mp h).2
    cases o with
    | value u' => cases hlast
    | idle => exact ⟨rfl, hnot⟩
    | event e' => exact ⟨rfl, hnot⟩

end Turn
end EventLoop

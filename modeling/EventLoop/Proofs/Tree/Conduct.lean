import EventLoop.Proofs.Tree.Turned

/-!
# Which trees give back what they hold

`both` and `either` return one value a turn and hold the others, and only a turn
of the node itself lets them go.  The second part of a chain has a turn only
when a value crosses over, and the first part is not asked again once the second
has swallowed a value.  Whether values can be left behind there depends on what
the parts may answer, which is computed here from the leaves up.

## Main definitions

* `Drive` — what a turn is driven by: a value, or anything else.
* `Traits`, `Conduct` — what leaves may and will answer, and the proof that they
  keep to it.
* `Tree.gives`, `Tree.insists` — may a tree answer with a value, and does it
  answer every value with one?
* `Tree.clear` — does a tree that holds nothing hold nothing after a turn?
* `Tree.drains` — are all held values released by turns without input?

## Main results

* `Turned.alike` — a turn changes none of these answers.
* `Turned.fresh` — a turn of a tree that holds nothing.
-/

namespace EventLoop

variable {L F : Payload → Payload → Type} {ω : Type}

/-! ### Drives and traits -/

/-- What a turn is driven by. -/
inductive Drive
  /-- A value. -/
  | value
  /-- An event or no input. -/
  | signal
  deriving DecidableEq, Repr

/-- What a turn with this input is driven by. -/
def Reaction.drive {α : Type} : Reaction α → Drive
  | .value _ => .value
  | _ => .signal

/-- What the leaves of a tree answer. -/
structure Traits (L : Payload → Payload → Type) where
  /-- May it answer with a value? -/
  gives : {p q : Payload} → L p q → Drive → Bool
  /-- Does it answer every value with a value? -/
  insists : {p q : Payload} → L p q → Bool

/-- The leaves keep to their traits, and do not change them. -/
structure Conduct (b : Behaviour L F (StateM ω)) (c : Traits L) : Prop where
  gives_of_value : ∀ {p q : Payload} (l : L p q) (input : Reaction p.Val) (w : ω),
    ((b.react l input).run w).1.1.isValue = true → c.gives l input.drive = true
  value_of_insists : ∀ {p q : Payload} (l : L p q) (input : Reaction p.Val) (w : ω),
    input.isValue = true → c.insists l = true → ((b.react l input).run w).1.1.isValue = true
  gives_eq : ∀ {p q : Payload} (l : L p q) (input : Reaction p.Val) (w : ω) (d : Drive),
    c.gives ((b.react l input).run w).1.2 d = c.gives l d
  insists_eq : ∀ {p q : Payload} (l : L p q) (input : Reaction p.Val) (w : ω),
    c.insists ((b.react l input).run w).1.2 = c.insists l

/-! ### Reactions -/

namespace Reaction

variable {α β : Type}

theorem drive_of_isValue {x : Reaction α} (h : x.isValue = true) : x.drive = .value := by
  cases x with
  | value v => rfl
  | idle => cases h
  | event e => cases h

theorem drive_of_not_isValue {x : Reaction α} (h : x.isValue = false) : x.drive = .signal := by
  cases x with
  | value v => cases h
  | idle => rfl
  | event e => rfl

@[simp] theorem isValue_pass (x : Reaction α) : (x.pass : Reaction β).isValue = false := by
  cases x <;> rfl

@[simp] theorem event?_pass (x : Reaction α) : (x.pass : Reaction β).event? = x.event? := by
  cases x <;> rfl

@[simp] theorem isValue_map (f : α → β) (x : Reaction α) : (x.map f).isValue = x.isValue := by
  cases x <;> rfl

@[simp] theorem map_id (x : Reaction α) : x.map id = x := by cases x <;> rfl

theorem values_map (f : α → β) (x : Reaction α) : (x.map f).values = x.values.map f := by
  cases x <;> rfl

theorem length_values (x : Reaction α) : x.values.length = x.isValue.toNat := by
  cases x <;> rfl

theorem values_eq_nil_iff {x : Reaction α} : x.values = [] ↔ x.isValue = false := by
  cases x with
  | value v => constructor <;> intro h <;> cases h
  | idle => exact ⟨fun _ => rfl, fun _ => rfl⟩
  | event e => exact ⟨fun _ => rfl, fun _ => rfl⟩

end Reaction

/-! ### Queues -/

namespace Tree

theorem isValue_release {α : Type} (queue : List α) :
    (release queue).1.isValue = false ↔ queue = [] := by
  cases queue with
  | nil => exact ⟨fun _ => rfl, fun _ => rfl⟩
  | cons v rest => constructor <;> intro h <;> cases h

/-- What comes out of a queue and what is left are what was in it. -/
theorem values_release {α : Type} (queue : List α) :
    (release queue).1.values ++ (release queue).2 = queue := by
  cases queue <;> rfl

theorem length_release {α : Type} (queue : List α) :
    (release queue).1.values.length + (release queue).2.length = queue.length := by
  rw [← List.length_append, values_release]

/-- If nothing comes out of a queue then neither part has fed it, and nothing is left. -/
theorem release_none {α : Type} {waiting : List α} {x y : Reaction α}
    (h : (release (waiting ++ x.values ++ y.values)).1.isValue = false) :
    x.isValue = false ∧ y.isValue = false ∧
      (release (waiting ++ x.values ++ y.values)).2 = [] := by
  rw [isValue_release] at h
  rw [h]
  obtain ⟨hleft, hy⟩ := List.append_eq_nil_iff.mp h
  obtain ⟨-, hx⟩ := List.append_eq_nil_iff.mp hleft
  exact ⟨Reaction.values_eq_nil_iff.mp hx, Reaction.values_eq_nil_iff.mp hy, rfl⟩

/-- An empty queue is fed by two parts: what comes out comes from one of them, and nothing is
left unless both have given a value. -/
theorem release_fed {α : Type} {x y : Reaction α} {g₁ g₂ : Bool}
    (hx : x.isValue = true → g₁ = true) (hy : y.isValue = true → g₂ = true) :
    ((release (x.values ++ y.values)).1.isValue = true → (g₁ || g₂) = true) ∧
      ((g₁ && g₂) = false → (release (x.values ++ y.values)).2 = []) := by
  cases hvx : x.isValue with
  | false =>
    rw [Reaction.values_eq_nil_iff.mpr hvx, List.nil_append]
    cases y with
    | value v =>
      refine ⟨fun _ => ?_, fun _ => rfl⟩
      rw [hy rfl, Bool.or_true]
    | idle => exact ⟨nofun, fun _ => rfl⟩
    | event e => exact ⟨nofun, fun _ => rfl⟩
  | true =>
    rw [hx hvx, Bool.true_or, Bool.true_and]
    refine ⟨fun _ => rfl, fun hg => ?_⟩
    have hvy : y.isValue = false := by
      by_contra hne
      rw [hy (Bool.not_eq_false _ ▸ hne)] at hg
      cases hg
    rw [Reaction.values_eq_nil_iff.mpr hvy, List.append_nil]
    cases x <;> rfl

/-- No queue of the tree holds a value. -/
def Drained {p q : Payload} (t : Tree L F p q) : Prop := ∀ n ∈ t.held, n = 0

section

variable {p p₁ p₂ q q₁ q₂ r : Payload}

theorem drained_leaf (l : L p q) : (leaf l : Tree L F p q).Drained := by
  intro n hn
  cases hn

theorem drained_consume : (consume : Tree L F p p).Drained := by
  intro n hn
  cases hn

theorem drained_chain {t : Tree L F p q} {s : Tree L F q r} :
    (chain t s).Drained ↔ t.Drained ∧ s.Drained := List.forall_mem_append

/-- A node with a queue is drained if the queue is empty and its parts are drained. -/
theorem forall_mem_queue {n : Nat} {xs ys : List Nat} :
    (∀ k ∈ n :: (xs ++ ys), k = 0) ↔ n = 0 ∧ (∀ k ∈ xs, k = 0) ∧ ∀ k ∈ ys, k = 0 := by
  rw [List.forall_mem_cons, List.forall_mem_append]

theorem drained_both {label : Option String} {join : Join q₁ q₂ r} {waiting : List r.Val}
    {t : Tree L F p q₁} {s : Tree L F p q₂} :
    (both label join waiting t s).Drained ↔ waiting = [] ∧ t.Drained ∧ s.Drained := by
  unfold Drained
  rw [held, forall_mem_queue, List.length_eq_zero_iff]

theorem drained_either {waiting : List q.Val} {t : Tree L F p₁ q} {s : Tree L F p₂ q} :
    (either waiting t s).Drained ↔ waiting = [] ∧ t.Drained ∧ s.Drained := by
  unfold Drained
  rw [held, forall_mem_queue, List.length_eq_zero_iff]

end

/-! ### What a tree answers -/

/-- May a tree that holds nothing answer with a value? -/
def gives (c : Traits L) {p q : Payload} : Tree L F p q → Drive → Bool
  | .leaf l, d => c.gives l d
  | .consume, d => d == .value
  | .boxed t, d => t.gives c d
  | .chain t s, d => t.gives c d && s.gives c .value
  | .map t _, d => t.gives c d
  | .both _ _ _ t s, d => t.gives c d || s.gives c d
  | .either _ t s, d => t.gives c d || s.gives c d

/-- Does a tree answer every value with a value? -/
def insists (c : Traits L) {p q : Payload} : Tree L F p q → Bool
  | .leaf l => c.insists l
  | .consume => true
  | .boxed t => t.insists c
  | .chain t s => t.insists c && s.insists c
  | .map t _ => t.insists c
  | .both _ _ _ t s => t.insists c || s.insists c
  | .either _ t s => t.insists c && s.insists c

/-- Does a tree that holds nothing hold nothing after a turn either? A value reaches only one
part of an `either`, everything else reaches both. -/
def clear (c : Traits L) {p q : Payload} : Tree L F p q → Drive → Bool
  | .leaf _, _ => true
  | .consume, _ => true
  | .boxed t, d => t.clear c d
  | .chain t s, d => t.clear c d && (!t.gives c d || s.clear c .value)
  | .map t _, d => t.clear c d
  | .both _ _ _ t s, d => t.clear c d && s.clear c d && !(t.gives c d && s.gives c d)
  | .either _ t s, .value => t.clear c .value && s.clear c .value
  | .either _ t s, .signal =>
    t.clear c .signal && s.clear c .signal && !(t.gives c .signal && s.gives c .signal)

/-- Are all values that a tree holds released by turns without input, before one of them gives
no value? In a chain, the second part must not hold any, and if it may swallow one the first
part must not either. -/
def drains (c : Traits L) {p q : Payload} : Tree L F p q → Bool
  | .leaf _ => true
  | .consume => true
  | .boxed t => t.drains c
  | .chain t s => t.drains c &&
    (!t.gives c .signal || (s.clear c .value && (s.insists c || t.clear c .signal)))
  | .map t _ => t.drains c
  | .both _ _ _ t s => t.drains c && s.drains c
  | .either _ t s => t.drains c && s.drains c

end Tree

/-! ### What a turn keeps -/

/-- Two trees are built alike: the same is to be expected of them. -/
structure Tree.Alike (c : Traits L) {p q : Payload} (t t' : Tree L F p q) : Prop where
  gives_eq : ∀ d, t'.gives c d = t.gives c d
  insists_eq : t'.insists c = t.insists c
  clear_eq : ∀ d, t'.clear c d = t.clear c d
  drains_eq : t'.drains c = t.drains c

namespace Turned

variable {b : Behaviour L F (StateM ω)} {c : Traits L} {p q : Payload} {t t' : Tree L F p q}
  {input : Reaction p.Val} {out : Reaction q.Val}

/-- A turn does not change how a tree is built. -/
theorem alike (hc : Conduct b c) (h : Turned b t input out t') : t.Alike c t' := by
  induction h with
  | @leaf p q l l' input out w w' h =>
    have hl : ((b.react l input).run w).1.2 = l' := by rw [h]
    refine ⟨fun d => ?_, ?_, fun d => rfl, rfl⟩
    · show c.gives l' d = c.gives l d
      rw [← hl]
      exact hc.gives_eq l input w d
    · show c.insists l' = c.insists l
      rw [← hl]
      exact hc.insists_eq l input w
  | consume input => exact ⟨fun _ => rfl, rfl, fun _ => rfl, rfl⟩
  | boxed _ ih => exact ⟨ih.gives_eq, ih.insists_eq, ih.clear_eq, ih.drains_eq⟩
  | cross _ _ iht ihs =>
    constructor <;> simp only [Tree.gives, Tree.insists, Tree.clear, Tree.drains, iht.gives_eq,
      iht.insists_eq, iht.clear_eq, iht.drains_eq, ihs.gives_eq, ihs.insists_eq, ihs.clear_eq,
      implies_true]
  | stay _ _ iht =>
    constructor <;> simp only [Tree.gives, Tree.insists, Tree.clear, Tree.drains, iht.gives_eq,
      iht.insists_eq, iht.clear_eq, iht.drains_eq, implies_true]
  | mapped _ _ ih => exact ⟨ih.gives_eq, ih.insists_eq, ih.clear_eq, ih.drains_eq⟩
  | unmapped _ _ ih => exact ⟨ih.gives_eq, ih.insists_eq, ih.clear_eq, ih.drains_eq⟩
  | both _ _ iht ihs =>
    constructor <;> simp only [Tree.gives, Tree.insists, Tree.clear, Tree.drains, iht.gives_eq,
      iht.insists_eq, iht.clear_eq, iht.drains_eq, ihs.gives_eq, ihs.insists_eq, ihs.clear_eq,
      ihs.drains_eq, implies_true]
  -- what keeps an `either` clear depends on the drive
  | left _ ih =>
    refine ⟨fun d => ?_, ?_, fun d => ?_, ?_⟩
    · simp only [Tree.gives, ih.gives_eq]
    · simp only [Tree.insists, ih.insists_eq]
    · cases d <;> simp only [Tree.clear, ih.gives_eq, ih.clear_eq]
    · simp only [Tree.drains, ih.drains_eq]
  | right _ ih =>
    refine ⟨fun d => ?_, ?_, fun d => ?_, ?_⟩
    · simp only [Tree.gives, ih.gives_eq]
    · simp only [Tree.insists, ih.insists_eq]
    · cases d <;> simp only [Tree.clear, ih.gives_eq, ih.clear_eq]
    · simp only [Tree.drains, ih.drains_eq]
  | fork _ _ _ _ iht ihs =>
    refine ⟨fun d => ?_, ?_, fun d => ?_, ?_⟩
    · simp only [Tree.gives, iht.gives_eq, ihs.gives_eq]
    · simp only [Tree.insists, iht.insists_eq, ihs.insists_eq]
    · cases d <;> simp only [Tree.clear, iht.gives_eq, iht.clear_eq, ihs.gives_eq, ihs.clear_eq]
    · simp only [Tree.drains, iht.drains_eq, ihs.drains_eq]

/-- A tree that answers every value with a value does so in every state. -/
theorem isValue_of_insists (hc : Conduct b c) (h : Turned b t input out t')
    (hin : input.isValue = true) (ht : t.insists c = true) : out.isValue = true := by
  induction h with
  | @leaf p q l l' input out w w' h =>
    have hl := hc.value_of_insists l input w hin ht
    rwa [h] at hl
  | consume input => exact hin
  | boxed _ ih => exact ih hin ht
  | cross _ _ iht ihs => exact ihs rfl (Bool.and_eq_true_iff.mp ht).2
  | stay _ hout ih =>
    rw [ih hin (Bool.and_eq_true_iff.mp ht).1] at hout
    cases hout
  | mapped _ w _ => rfl
  | unmapped _ hout ih =>
    rw [ih hin ht] at hout
    cases hout
  | @both p q₁ q₂ r label join waiting t t' s s' input out₁ out₂ _ _ iht ihs =>
    -- one of the two values is in the queue
    by_contra hno
    obtain ⟨h₁, h₂, -⟩ := Tree.release_none (Bool.not_eq_true _ ▸ hno)
    rw [Reaction.isValue_map] at h₁ h₂
    rcases Bool.or_eq_true_iff.mp ht with h | h
    · rw [iht hin h] at h₁
      cases h₁
    · rw [ihs hin h] at h₂
      cases h₂
  | left _ ih => exact ih rfl (Bool.and_eq_true_iff.mp ht).1
  | right _ ih => exact ih rfl (Bool.and_eq_true_iff.mp ht).2
  | fork hno _ _ _ _ _ =>
    rw [hin] at hno
    cases hno

/-- **A turn of a tree that holds nothing.** -/
theorem fresh (hc : Conduct b c) (h : Turned b t input out t') (ht : t.Drained) :
    (out.isValue = true → t.gives c input.drive = true) ∧
      (t.clear c input.drive = true → t'.Drained) := by
  induction h with
  | @leaf p q l l' input out w w' h =>
    refine ⟨fun hout => ?_, fun _ => Tree.drained_leaf l'⟩
    refine hc.gives_of_value l input w ?_
    rw [h]
    exact hout
  | consume input =>
    refine ⟨fun hin => ?_, fun _ => Tree.drained_consume⟩
    rw [Reaction.drive_of_isValue hin]
    rfl
  | boxed _ ih => exact ih ht
  | cross _ _ iht ihs =>
    obtain ⟨ht, hs⟩ := Tree.drained_chain.mp ht
    obtain ⟨hgt, hct⟩ := iht ht
    obtain ⟨hgs, hcs⟩ := ihs hs
    -- a value crosses over, so the first part may give one
    have hgive := hgt rfl
    constructor
    · intro hout
      exact Bool.and_eq_true_iff.mpr ⟨hgive, hgs hout⟩
    · intro hclear
      obtain ⟨h₁, h₂⟩ := Bool.and_eq_true_iff.mp hclear
      rw [hgive, Bool.not_true, Bool.false_or] at h₂
      exact Tree.drained_chain.mpr ⟨hct h₁, hcs h₂⟩
  | stay _ _ iht =>
    obtain ⟨ht, hs⟩ := Tree.drained_chain.mp ht
    refine ⟨fun hout => ?_, fun hclear => ?_⟩
    · rw [Reaction.isValue_pass] at hout
      cases hout
    · exact Tree.drained_chain.mpr ⟨(iht ht).2 (Bool.and_eq_true_iff.mp hclear).1, hs⟩
  | mapped _ w ih => exact ⟨fun _ => (ih ht).1 rfl, (ih ht).2⟩
  | unmapped _ _ ih =>
    refine ⟨fun hout => ?_, (ih ht).2⟩
    rw [Reaction.isValue_pass] at hout
    cases hout
  | @both p q₁ q₂ r label join waiting t t' s s' input out₁ out₂ _ _ iht ihs =>
    obtain ⟨rfl, ht, hs⟩ := Tree.drained_both.mp ht
    obtain ⟨hgt, hct⟩ := iht ht
    obtain ⟨hgs, hcs⟩ := ihs hs
    rw [← Reaction.isValue_map join.first] at hgt
    rw [← Reaction.isValue_map join.second] at hgs
    obtain ⟨hgive, hkeep⟩ := Tree.release_fed hgt hgs
    refine ⟨hgive, fun hclear => ?_⟩
    obtain ⟨hparts, hnot⟩ := Bool.and_eq_true_iff.mp hclear
    obtain ⟨h₁, h₂⟩ := Bool.and_eq_true_iff.mp hparts
    exact Tree.drained_both.mpr ⟨hkeep ((Bool.not_eq_true' _).mp hnot), hct h₁, hcs h₂⟩
  | left _ ih =>
    obtain ⟨hw, ht, hs⟩ := Tree.drained_either.mp ht
    obtain ⟨hg, hc⟩ := ih ht
    refine ⟨fun hout => ?_, fun hclear => ?_⟩
    · exact Bool.or_eq_true_iff.mpr (Or.inl (hg hout))
    · exact Tree.drained_either.mpr ⟨hw, hc (Bool.and_eq_true_iff.mp hclear).1, hs⟩
  | right _ ih =>
    obtain ⟨hw, ht, hs⟩ := Tree.drained_either.mp ht
    obtain ⟨hg, hc⟩ := ih hs
    refine ⟨fun hout => ?_, fun hclear => ?_⟩
    · exact Bool.or_eq_true_iff.mpr (Or.inr (hg hout))
    · exact Tree.drained_either.mpr ⟨hw, ht, hc (Bool.and_eq_true_iff.mp hclear).2⟩
  | fork hno _ _ hout iht ihs =>
    obtain ⟨rfl, ht, hs⟩ := Tree.drained_either.mp ht
    obtain ⟨hgt, hct⟩ := iht ht
    obtain ⟨hgs, hcs⟩ := ihs hs
    rw [Reaction.drive_of_not_isValue (Reaction.isValue_pass _)] at hgt hct hgs hcs
    rw [Reaction.drive_of_not_isValue hno, hout]
    obtain ⟨hgive, hkeep⟩ := Tree.release_fed hgt hgs
    refine ⟨hgive, fun hclear => ?_⟩
    obtain ⟨hparts, hnot⟩ := Bool.and_eq_true_iff.mp hclear
    obtain ⟨h₁, h₂⟩ := Bool.and_eq_true_iff.mp hparts
    exact Tree.drained_either.mpr ⟨hkeep ((Bool.not_eq_true' _).mp hnot), hct h₁, hcs h₂⟩

end Turned
end EventLoop

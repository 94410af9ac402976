import EventLoop.Proofs.Tree.Conduct
import EventLoop.Proofs.Tree.Producers
import Mathlib.Algebra.Ring.Nat

/-!
# Values and where they come from

In a tree of producers, functions and queues, every value goes back to one that was
put into a producer.  A blend is such a tree with this written on every value that
it holds; without it, it is a tree, and takes the same turns.

## Main definitions

* `Origin`, `Item` — a value of a producer, and what became of it.
* `Fork` — the two ways to drive two parts at once.
* `Blend` — a tree of producers whose queues hold items; `Blend.toTree` forgets the origins.
* `Blend.turn` — one turn; `Blend.Turns` says what a turn can do.
* `Blend.trace` — what becomes of a value of a producer on its way through the tree.
* `Blend.Sound` — what is held is what becomes of its origin.

## Main results

* `Turns.sound` — what is held stays what becomes of its origin.
* `Turns.conserved` — **a turn neither loses nor reorders the values of a producer.**
* `Turns.load_eq` — every value that comes out is one less to come.
* `Turns.drained` — **a turn without input and without a value leaves nothing to come.**
* `Turns.run_react_toTree` — **a blend takes the turns of its tree.**
-/

namespace EventLoop

variable {ι : Type} {kind : ι → Payload} {α β γ : Type}

/-! ### Origins -/

/-- A value of a producer. -/
abbrev Origin (kind : ι → Payload) : Type := (i : ι) × (kind i).Val

/-- A value on its way through a tree, with the value of a producer that it goes back to. -/
structure Item (kind : ι → Payload) (α : Type) where
  /-- The value of the producer. -/
  origin : Origin kind
  /-- What has become of it. -/
  value : α

namespace Item

/-- A function is applied. -/
def map (f : α → β) (x : Item kind α) : Item kind β := ⟨x.origin, f x.value⟩

@[simp] theorem origin_map (f : α → β) (x : Item kind α) : (x.map f).origin = x.origin := rfl

@[simp] theorem value_map (f : α → β) (x : Item kind α) : (x.map f).value = f x.value := rfl

end Item

namespace Origin

variable [DecidableEq ι]

/-- The value, if it is one of the producer `i`. -/
def of (i : ι) (o : Origin kind) : Option (kind i).Val :=
  if h : o.1 = i then some (h ▸ o.2) else none

/-- The values of the producer `i`. -/
def allOf (i : ι) (os : List (Origin kind)) : List (kind i).Val := os.filterMap (of i)

@[simp] theorem of_self (i : ι) (v : (kind i).Val) : of i (⟨i, v⟩ : Origin kind) = some v :=
  dif_pos rfl

theorem of_eq_none {i : ι} {o : Origin kind} (h : o.1 ≠ i) : of i o = none := dif_neg h

@[simp] theorem allOf_nil (i : ι) : allOf i ([] : List (Origin kind)) = [] := rfl

@[simp] theorem allOf_append (i : ι) (os os' : List (Origin kind)) :
    allOf i (os ++ os') = allOf i os ++ allOf i os' := List.filterMap_append

/-- Among the values of other producers there is none of `i`. -/
theorem allOf_eq_nil {i : ι} {os : List (Origin kind)} {others : List ι}
    (h : ∀ o ∈ os, o.1 ∈ others) (hi : i ∉ others) : allOf i os = [] :=
  List.filterMap_eq_nil_iff.mpr fun o ho => of_eq_none fun heq => hi (heq ▸ h o ho)

theorem allOf_values_source {i : ι} (x : Reaction (kind i).Val) :
    allOf i ((x.map fun v => (⟨⟨i, v⟩, v⟩ : Item kind (kind i).Val)).values.map Item.origin)
      = x.values := by
  cases x <;> simp [Reaction.map, allOf]

end Origin

/-! ### Blends -/

/-- How two parts are driven at once: with the same input, or each with its alternative of the
input. -/
inductive Fork : (p p₁ p₂ q₁ q₂ r : Payload) → Type
  /-- As in `Tree.both`. -/
  | both {p q₁ q₂ r : Payload} (label : Option String) (join : Join q₁ q₂ r) :
    Fork p p p q₁ q₂ r
  /-- As in `Tree.either`. -/
  | either {p₁ p₂ q : Payload} : Fork (.choice p₁ p₂) p₁ p₂ q q q

namespace Fork

variable {p p₁ p₂ q₁ q₂ r : Payload}

/-- A value of the first part as an output. -/
def first : Fork p p₁ p₂ q₁ q₂ r → q₁.Val → r.Val
  | .both _ join => join.first
  | .either => id

/-- A value of the second part as an output. -/
def second : Fork p p₁ p₂ q₁ q₂ r → q₂.Val → r.Val
  | .both _ join => join.second
  | .either => id

/-- What comes out when no value does. -/
def rest : Fork p p₁ p₂ q₁ q₂ r → Option Event → Reaction α → Reaction β → Reaction γ
  | .both _ _, _, _, _ => .idle
  | .either, e, out₁, out₂ =>
    if e.isSome && out₁.isEvent && out₂.isEvent then out₁.pass else .idle

/-- The tree of two parts and a queue. -/
def tree {L F : Payload → Payload → Type} : Fork p p₁ p₂ q₁ q₂ r → List r.Val →
    Tree L F p₁ q₁ → Tree L F p₂ q₂ → Tree L F p r
  | .both label join, waiting, t, s => .both label join waiting t s
  | .either, waiting, t, s => .either waiting t s

@[simp] theorem values_rest (n : Fork p p₁ p₂ q₁ q₂ r) (e : Option Event) (x : Reaction α)
    (y : Reaction β) : (n.rest e x y : Reaction γ).values = [] := by
  cases n with
  | both label join => rfl
  | either =>
    simp only [rest]
    split
    · cases x <;> rfl
    · rfl

end Fork

/-- A tree of producers, with an origin on every value that it holds. -/
inductive Blend (kind : ι → Payload) : Payload → Payload → Type
  /-- The producer with the name `i`. -/
  | source (i : ι) : Blend kind .unit (kind i)
  /-- Applies a function to every value. -/
  | map {p q r : Payload} (t : Blend kind p q) (f : q.Val → r.Val) : Blend kind p r
  /-- Drives two parts. -/
  | fork {p p₁ p₂ q₁ q₂ r : Payload} (n : Fork p p₁ p₂ q₁ q₂ r)
    (waiting : List (Item kind r.Val)) (t : Blend kind p₁ q₁) (s : Blend kind p₂ q₂) :
    Blend kind p r

/-- An event, or no input. -/
def Reaction.ofEvent? : Option Event → Reaction α
  | some e => .event e
  | none => .idle

namespace Blend

variable {p q r p₁ p₂ q₁ q₂ : Payload}

/-- The tree without the origins. -/
def toTree {p q : Payload} : Blend kind p q → Tree (Stock.Leaf kind) (fun p q => p.Val → q.Val) p q
  | .source i => .leaf (.of i)
  | .map t f => .map t.toTree f
  | .fork n waiting t s => n.tree (waiting.map Item.value) t.toTree s.toTree

/-- The names of the producers. -/
def sources {p q : Payload} : Blend kind p q → List ι
  | .source i => [i]
  | .map t _ => t.sources
  | .fork _ _ t s => t.sources ++ s.sources

/-- The origins of what is held, outermost first. -/
def held {p q : Payload} : Blend kind p q → List (Origin kind)
  | .source _ => []
  | .map t _ => t.held
  | .fork _ waiting t s => waiting.map Item.origin ++ (t.held ++ s.held)

/-- What comes of two parts and a queue: an item, if there is one, and otherwise `rest`. -/
def yield (rest : Reaction α) : List α → Reaction α × List α
  | [] => (rest, [])
  | x :: queue => (.value x, queue)

/-- How many values are held or still to come. -/
def load (t : Blend kind p q) (stock : Stock kind) : Nat :=
  t.held.length + (t.sources.map fun i => (stock i).queue.length).sum

variable [DecidableEq ι]

/-- What becomes of a value of a producer on its way through the tree. -/
def trace {p q : Payload} : Blend kind p q → Origin kind → Option q.Val
  | .source i, o => o.of i
  | .map t f, o => (t.trace o).map f
  | .fork n _ t s, o => ((t.trace o).map n.first).or ((s.trace o).map n.second)

/-- What is held is what becomes of its origin. -/
def Sound {p q : Payload} : Blend kind p q → Prop
  | .source _ => True
  | .map t _ => t.Sound
  | .fork n waiting t s =>
    (∀ x ∈ waiting, (Blend.fork n waiting t s).trace x.origin = some x.value) ∧ t.Sound ∧ s.Sound

/-- One turn, with an event or without input. -/
def turn {p q : Payload} : Blend kind p q → Option Event → Stock kind × Loop →
    Reaction (Item kind q.Val) × Blend kind p q × Stock kind × Loop
  | .source i, e, w =>
    let (out, w) := Stock.drive i (.ofEvent? e) w
    (out.map fun v => ⟨⟨i, v⟩, v⟩, .source i, w)
  | .map t f, e, w =>
    let (out, t, w) := t.turn e w
    (out.map (Item.map f), .map t f, w)
  | .fork n waiting t s, e, w =>
    let (out₁, t, w) := t.turn e w
    let (out₂, s, w) := s.turn e w
    let (out, waiting) := yield (n.rest e out₁ out₂)
      (waiting ++ (out₁.map (Item.map n.first)).values ++ (out₂.map (Item.map n.second)).values)
    (out, .fork n waiting t s, w)

/-! ### What a turn can do -/

omit [DecidableEq ι] in
theorem values_yield {rest : Reaction α} (hrest : rest.values = []) (queue : List α) :
    (yield rest queue).1.values ++ (yield rest queue).2 = queue := by
  cases queue with
  | nil => simpa [yield] using hrest
  | cons x queue => rfl

omit [DecidableEq ι] in
theorem isValue_yield {rest : Reaction α} (hrest : rest.values = []) (queue : List α) :
    (yield rest queue).1.isValue = false ↔ queue = [] := by
  cases queue with
  | nil => exact iff_of_true (Reaction.values_eq_nil_iff.mp hrest) rfl
  | cons x queue => exact iff_of_false nofun nofun

/-- What a turn can do, with the state of the producers and of the loop before and after. -/
inductive Turns (e : Option Event) : {p q : Payload} → Blend kind p q → Stock kind × Loop →
    Reaction (Item kind q.Val) → Blend kind p q → Stock kind × Loop → Prop
  | source (i : ι) (w : Stock kind × Loop) :
    Turns e (.source i) w ((Stock.drive i (.ofEvent? e) w).1.map fun v => ⟨⟨i, v⟩, v⟩) (.source i)
      (Stock.drive i (.ofEvent? e) w).2
  | map {p q r : Payload} {t t' : Blend kind p q} {w w' : Stock kind × Loop}
    {out : Reaction (Item kind q.Val)} (f : q.Val → r.Val) (h : Turns e t w out t' w') :
    Turns e (.map t f) w (out.map (Item.map f)) (.map t' f) w'
  | fork {p p₁ p₂ q₁ q₂ r : Payload} {n : Fork p p₁ p₂ q₁ q₂ r}
    {waiting queue : List (Item kind r.Val)} {t t' : Blend kind p₁ q₁} {s s' : Blend kind p₂ q₂}
    {w w₁ w₂ : Stock kind × Loop} {out₁ : Reaction (Item kind q₁.Val)}
    {out₂ : Reaction (Item kind q₂.Val)} (h₁ : Turns e t w out₁ t' w₁)
    (h₂ : Turns e s w₁ out₂ s' w₂)
    (hq : waiting ++ (out₁.map (Item.map n.first)).values ++ (out₂.map (Item.map n.second)).values
      = queue) :
    Turns e (.fork n waiting t s) w (yield (n.rest e out₁ out₂) queue).1
      (.fork n (yield (n.rest e out₁ out₂) queue).2 t' s') w₂

theorem turns_turn (t : Blend kind p q) (e : Option Event) (w : Stock kind × Loop) :
    t.Turns e w (t.turn e w).1 (t.turn e w).2.1 (t.turn e w).2.2 := by
  induction t generalizing w with
  | source i => exact .source i w
  | map t f ih => exact .map f (ih w)
  | fork n waiting t s iht ihs => exact .fork (iht w) (ihs _) rfl

namespace Turns

variable {e : Option Event} {t t' : Blend kind p q} {w w' : Stock kind × Loop}
  {out : Reaction (Item kind q.Val)}

theorem sources_eq (h : t.Turns e w out t' w') : t'.sources = t.sources := by
  induction h with
  | source i w => rfl
  | map f _ ih => exact ih
  | fork _ _ _ ih₁ ih₂ => simp only [sources, ih₁, ih₂]

theorem trace_eq (h : t.Turns e w out t' w') (o : Origin kind) : t'.trace o = t.trace o := by
  induction h with
  | source i w => rfl
  | map f _ ih => simp only [trace, ih]
  | fork _ _ _ ih₁ ih₂ => simp only [trace, ih₁, ih₂]

/-- Other producers have no turn. -/
theorem frame (h : t.Turns e w out t' w') {i : ι} (hi : i ∉ t.sources) : w'.1 i = w.1 i := by
  induction h with
  | source j w =>
    exact Function.update_of_ne (fun hij => hi (List.mem_singleton.mpr hij)) _ _
  | map f _ ih => exact ih hi
  | fork _ _ _ ih₁ ih₂ =>
    rw [sources, List.mem_append, not_or] at hi
    exact (ih₂ hi.2).trans (ih₁ hi.1)

theorem isMono_eq (h : t.Turns e w out t' w') (i : ι) :
    (w'.1 i).isMono = (w.1 i).isMono := by
  induction h with
  | source j w =>
    by_cases hij : i = j
    · subst hij
      simp [Stock.drive]
    · simp [Stock.drive, Function.update_of_ne hij]
  | map f _ ih => exact ih
  | fork _ _ _ ih₁ ih₂ => exact ih₂.trans ih₁

end Turns

/-! ### Soundness -/

theorem mem_sources_of_trace {t : Blend kind p q} {o : Origin kind} {v : q.Val}
    (h : t.trace o = some v) : o.1 ∈ t.sources := by
  induction t with
  | source i =>
    by_contra hne
    cases (Origin.of_eq_none fun hi => hne (List.mem_singleton.mpr hi)).symm.trans h
  | map t f ih =>
    obtain ⟨u, hu, -⟩ := Option.map_eq_some_iff.mp h
    exact ih hu
  | fork n waiting t s iht ihs =>
    rcases Option.or_eq_some_iff.mp h with h | ⟨-, h⟩
    · obtain ⟨u, hu, -⟩ := Option.map_eq_some_iff.mp h
      exact List.mem_append_left _ (iht hu)
    · obtain ⟨u, hu, -⟩ := Option.map_eq_some_iff.mp h
      exact List.mem_append_right _ (ihs hu)

theorem mem_sources_of_held {t : Blend kind p q} (ht : t.Sound) :
    ∀ o ∈ t.held, o.1 ∈ t.sources := by
  induction t with
  | source i => exact nofun
  | map t f ih => exact ih ht
  | fork n waiting t s iht ihs =>
    obtain ⟨hw, ht, hs⟩ := ht
    intro o ho
    rcases List.mem_append.mp ho with ho | ho
    · obtain ⟨x, hx, rfl⟩ := List.mem_map.mp ho
      exact mem_sources_of_trace (hw x hx)
    · rcases List.mem_append.mp ho with ho | ho
      · exact List.mem_append_left _ (iht ht o ho)
      · exact List.mem_append_right _ (ihs hs o ho)

theorem sound_of_held {t : Blend kind p q} (ht : t.held = []) : t.Sound := by
  induction t with
  | source i => trivial
  | map t f ih => exact ih ht
  | fork n waiting t s iht ihs =>
    obtain ⟨hw, hts⟩ := List.append_eq_nil_iff.mp ht
    obtain ⟨htnil, hsnil⟩ := List.append_eq_nil_iff.mp hts
    obtain rfl := List.map_eq_nil_iff.mp hw
    exact ⟨nofun, iht htnil, ihs hsnil⟩

theorem mem_sources_of_values {t : Blend kind p q} {out : Reaction (Item kind q.Val)}
    (h : ∀ x ∈ out.values, t.trace x.origin = some x.value) :
    ∀ o ∈ out.values.map Item.origin, o.1 ∈ t.sources := by
  intro o ho
  obtain ⟨x, hx, rfl⟩ := List.mem_map.mp ho
  exact mem_sources_of_trace (h x hx)

theorem trace_fork_first {n : Fork p p₁ p₂ q₁ q₂ r} {waiting : List (Item kind r.Val)}
    {t : Blend kind p₁ q₁} {s : Blend kind p₂ q₂} {o : Origin kind} {v : q₁.Val}
    (h : t.trace o = some v) : (fork n waiting t s).trace o = some (n.first v) := by
  simp [trace, h]

theorem trace_fork_second {n : Fork p p₁ p₂ q₁ q₂ r} {waiting : List (Item kind r.Val)}
    {t : Blend kind p₁ q₁} {s : Blend kind p₂ q₂} {o : Origin kind} {v : q₂.Val}
    (hnd : (fork n waiting t s).sources.Nodup) (h : s.trace o = some v) :
    (fork n waiting t s).trace o = some (n.second v) := by
  -- the first part knows nothing of a producer of the second
  have hnone : t.trace o = none := by
    by_contra hne
    obtain ⟨u, hu⟩ := Option.ne_none_iff_exists'.mp hne
    exact (List.nodup_append.mp hnd).2.2 _ (mem_sources_of_trace hu) _ (mem_sources_of_trace h) rfl
  simp [trace, h, hnone]

namespace Turns

variable {e : Option Event} {t t' : Blend kind p q} {w w' : Stock kind × Loop}
  {out : Reaction (Item kind q.Val)}

/-- What is held stays what becomes of its origin, and so is what comes out. -/
theorem sound (h : t.Turns e w out t' w') (hnd : t.sources.Nodup) (ht : t.Sound) :
    t'.Sound ∧ ∀ x ∈ out.values, t.trace x.origin = some x.value := by
  induction h with
  | source i w =>
    refine ⟨trivial, fun x hx => ?_⟩
    generalize (Stock.drive i (.ofEvent? e) w).1 = out at hx
    cases out with
    | idle => cases hx
    | event e => cases hx
    | value v =>
      cases List.mem_singleton.mp hx
      exact Origin.of_self i v
  | @map p q r t t' w w' out f h ih =>
    obtain ⟨ht', hout⟩ := ih hnd ht
    refine ⟨ht', fun x hx => ?_⟩
    rw [Reaction.values_map] at hx
    obtain ⟨y, hy, rfl⟩ := List.mem_map.mp hx
    simp [trace, hout y hy]
  | @fork p p₁ p₂ q₁ q₂ r n waiting queue t t' s s' w w₁ w₂ out₁ out₂ h₁ h₂ hq ih₁ ih₂ =>
    obtain ⟨hw, ht, hs⟩ := ht
    obtain ⟨hndt, hnds, -⟩ := List.nodup_append.mp hnd
    obtain ⟨ht', hout₁⟩ := ih₁ hndt ht
    obtain ⟨hs', hout₂⟩ := ih₂ hnds hs
    have hqueue : ∀ x ∈ queue, (Blend.fork n waiting t s).trace x.origin = some x.value := by
      intro x hx
      rw [← hq, List.mem_append, List.mem_append, Reaction.values_map, Reaction.values_map] at hx
      rcases hx with (hx | hx) | hx
      · exact hw x hx
      · obtain ⟨y, hy, rfl⟩ := List.mem_map.mp hx
        exact trace_fork_first (hout₁ y hy)
      · obtain ⟨y, hy, rfl⟩ := List.mem_map.mp hx
        exact trace_fork_second hnd (hout₂ y hy)
    rw [← values_yield (n.values_rest e out₁ out₂) queue] at hqueue
    refine ⟨⟨fun x hx => ?_, ht', hs'⟩, fun x hx => hqueue x (List.mem_append_left _ hx)⟩
    rw [← hqueue x (List.mem_append_right _ hx)]
    simp only [trace, h₁.trace_eq, h₂.trace_eq]

/-! ### Conservation -/

omit [DecidableEq ι] in
theorem map_origin_values (f : α → β) (x : Reaction (Item kind α)) :
    (x.map (Item.map f)).values.map Item.origin = x.values.map Item.origin := by
  cases x <;> rfl

/-- What comes out and what stays in a queue is what was there and what the parts gave. -/
theorem allOf_yield {rest : Reaction (Item kind α)} (hrest : rest.values = [])
    {waiting queue : List (Item kind α)} {out₁ : Reaction (Item kind β)}
    {out₂ : Reaction (Item kind γ)} {f : β → α} {g : γ → α}
    (hq : waiting ++ (out₁.map (Item.map f)).values ++ (out₂.map (Item.map g)).values = queue)
    (i : ι) : Origin.allOf i ((yield rest queue).1.values.map Item.origin) ++
        Origin.allOf i ((yield rest queue).2.map Item.origin)
      = Origin.allOf i (waiting.map Item.origin) ++
        Origin.allOf i (out₁.values.map Item.origin) ++
        Origin.allOf i (out₂.values.map Item.origin) := by
  rw [← Origin.allOf_append, ← List.map_append, values_yield hrest, ← hq, List.map_append,
    List.map_append, map_origin_values, map_origin_values, Origin.allOf_append,
    Origin.allOf_append]

/-- The queue of a producer that is part of the tree, after its turn. -/
theorem queue_source (i : ι) (e : Option Event) (w : Stock kind × Loop) :
    (Stock.drive i (.ofEvent? e) w).1.values ++ ((Stock.drive i (.ofEvent? e) w).2.1 i).queue
      = (w.1 i).queue := by
  have h := (w.1 i).values_react (.ofEvent? e) w.2.host
  simpa [Stock.drive] using h

/-- **A turn neither loses nor reorders the values of a producer.**  What comes out, what is held
and what is still to come make up what was held and still to come before. -/
theorem conserved (h : t.Turns e w out t' w') (hnd : t.sources.Nodup) (ht : t.Sound) {i : ι}
    (hi : i ∈ t.sources) :
    Origin.allOf i (out.values.map Item.origin) ++ Origin.allOf i t'.held ++ (w'.1 i).queue
      = Origin.allOf i t.held ++ (w.1 i).queue := by
  induction h with
  | source j w =>
    obtain rfl := List.mem_singleton.mp hi
    rw [Origin.allOf_values_source]
    simpa [held] using queue_source i e w
  | map f _ ih =>
    rw [map_origin_values]
    exact ih hnd ht hi
  | @fork p p₁ p₂ q₁ q₂ r n waiting queue t t' s s' w w₁ w₂ out₁ out₂ h₁ h₂ hq ih₁ ih₂ =>
    obtain ⟨-, ht, hs⟩ := ht
    obtain ⟨hndt, hnds, hdisj⟩ := List.nodup_append.mp hnd
    obtain ⟨ht', hout₁⟩ := h₁.sound hndt ht
    obtain ⟨hs', hout₂⟩ := h₂.sound hnds hs
    simp only [held, Origin.allOf_append]
    rw [← List.append_assoc, ← List.append_assoc, allOf_yield (n.values_rest e out₁ out₂) hq]
    rcases List.mem_append.mp hi with hit | his
    · -- a producer of the first part: the second part has no turn with it, and none of its values
      have hnot : i ∉ s.sources := fun his => hdisj i hit i his rfl
      have hnot' : i ∉ s'.sources := h₂.sources_eq ▸ hnot
      have ih := ih₁ hndt ht hit
      rw [h₂.frame hnot, Origin.allOf_eq_nil (mem_sources_of_values hout₂) hnot,
        Origin.allOf_eq_nil (mem_sources_of_held hs) hnot,
        Origin.allOf_eq_nil (mem_sources_of_held hs') hnot']
      simpa using ih
    · -- and the other way round
      have hnot : i ∉ t.sources := fun hit => hdisj i hit i his rfl
      have hnot' : i ∉ t'.sources := h₁.sources_eq ▸ hnot
      have ih := ih₂ hnds hs his
      rw [h₁.frame hnot] at ih
      rw [Origin.allOf_eq_nil (mem_sources_of_values hout₁) hnot,
        Origin.allOf_eq_nil (mem_sources_of_held ht) hnot,
        Origin.allOf_eq_nil (mem_sources_of_held ht') hnot']
      simpa using ih

/-! ### Draining -/

/-- Every value that comes out is one less to come. -/
theorem load_eq (h : t.Turns e w out t' w') (hnd : t.sources.Nodup) :
    out.values.length + t'.load w'.1 = t.load w.1 := by
  induction h with
  | source i w =>
    have hlen := congrArg List.length (queue_source i e w)
    rw [List.length_append] at hlen
    simpa [load, held, sources, Reaction.values_map] using hlen
  | map f _ ih =>
    rw [Reaction.values_map, List.length_map]
    exact ih hnd
  | @fork p p₁ p₂ q₁ q₂ r n waiting queue t t' s s' w w₁ w₂ out₁ out₂ h₁ h₂ hq ih₁ ih₂ =>
    obtain ⟨hndt, hnds, hdisj⟩ := List.nodup_append.mp hnd
    have hlen₁ := ih₁ hndt
    have hlen₂ := ih₂ hnds
    have hlen : (yield (n.rest e out₁ out₂) queue).1.values.length +
        (yield (n.rest e out₁ out₂) queue).2.length
          = waiting.length + out₁.values.length + out₂.values.length := by
      rw [← List.length_append, values_yield (n.values_rest e out₁ out₂), ← hq,
        List.length_append, List.length_append, Reaction.values_map, Reaction.values_map,
        List.length_map, List.length_map]
    -- a producer has its turn in one part, and looks the same before and after the other's
    have hkeep₂ : (t.sources.map fun i => (w₂.1 i).queue.length)
        = t.sources.map fun i => (w₁.1 i).queue.length :=
      List.map_congr_left fun i hi => by rw [h₂.frame fun his => hdisj i hi i his rfl]
    have hkeep₁ : (s.sources.map fun i => (w₁.1 i).queue.length)
        = s.sources.map fun i => (w.1 i).queue.length :=
      List.map_congr_left fun i hi => by rw [h₁.frame fun hit => hdisj i hit i hi rfl]
    simp only [load, held, sources, List.length_append, List.length_map, List.map_append,
      List.sum_append, h₁.sources_eq, h₂.sources_eq, hkeep₁, hkeep₂] at hlen₁ hlen₂ ⊢
    omega

/-- **A turn without input and without a value leaves nothing to come**, except from producers
that give a value on their own event only. -/
theorem drained (h : t.Turns none w out t' w') (hnd : t.sources.Nodup)
    (hout : out.isValue = false) :
    t'.held = [] ∧ ∀ i ∈ t.sources, (w'.1 i).isMono = false → (w'.1 i).queue = [] := by
  induction h with
  | source i w =>
    refine ⟨rfl, fun j hj hmono => ?_⟩
    obtain rfl := List.mem_singleton.mp hj
    rw [Reaction.isValue_map] at hout
    have hqueue := queue_source j none w
    rw [Reaction.values_eq_nil_iff.mpr hout, List.nil_append] at hqueue
    rw [hqueue]
    by_contra hne
    have hasked : (w.1 j).asked .idle = true := by
      have := (Turns.source (e := none) j w).isMono_eq j
      simp [Producer.asked, ← this, hmono]
    cases hout.symm.trans (Producer.isValue_react hasked hne w.2.host)
  | map f _ ih =>
    rw [Reaction.isValue_map] at hout
    exact ih hnd hout
  | @fork p p₁ p₂ q₁ q₂ r n waiting queue t t' s s' w w₁ w₂ out₁ out₂ h₁ h₂ hq ih₁ ih₂ =>
    obtain ⟨hndt, hnds, hdisj⟩ := List.nodup_append.mp hnd
    -- the queue is empty, so neither part gave a value
    rw [isValue_yield (n.values_rest _ out₁ out₂)] at hout
    subst hout
    obtain ⟨hleft, hnone₂⟩ := List.append_eq_nil_iff.mp hq
    obtain ⟨-, hnone₁⟩ := List.append_eq_nil_iff.mp hleft
    rw [Reaction.values_eq_nil_iff, Reaction.isValue_map] at hnone₁ hnone₂
    obtain ⟨hheld₁, hempty₁⟩ := ih₁ hndt hnone₁
    obtain ⟨hheld₂, hempty₂⟩ := ih₂ hnds hnone₂
    refine ⟨?_, fun i hi hmono => ?_⟩
    · simp [held, yield, hheld₁, hheld₂]
    · rcases List.mem_append.mp hi with hit | his
      · have hkeep := h₂.frame fun his => hdisj i hit i his rfl
        rw [hkeep] at hmono ⊢
        exact hempty₁ i hit hmono
      · exact hempty₂ i his hmono

/-- An event of a producer that has a value makes one come out. -/
theorem isValue_of_owns {event : Event} (h : t.Turns (some event) w out t' w') {i : ι}
    (hi : i ∈ t.sources) (howns : (w.1 i).owns event = true) (hq : (w.1 i).queue ≠ []) :
    out.isValue = true := by
  induction h with
  | source j w =>
    obtain rfl := List.mem_singleton.mp hi
    rw [Reaction.isValue_map]
    have hasked : (w.1 i).asked (.event event) = true := howns
    exact Producer.isValue_react hasked hq w.2.host
  | map f _ ih =>
    rw [Reaction.isValue_map]
    exact ih hi howns hq
  | @fork p p₁ p₂ q₁ q₂ r n waiting queue t t' s s' w w₁ w₂ out₁ out₂ h₁ h₂ hqueue ih₁ ih₂ =>
    -- with an empty queue the part of the producer would have given nothing
    rw [← Bool.not_eq_false, isValue_yield (n.values_rest _ out₁ out₂)]
    rintro rfl
    obtain ⟨hleft, hnone₂⟩ := List.append_eq_nil_iff.mp hqueue
    obtain ⟨-, hnone₁⟩ := List.append_eq_nil_iff.mp hleft
    rw [Reaction.values_eq_nil_iff, Reaction.isValue_map] at hnone₁ hnone₂
    by_cases hit : i ∈ t.sources
    · cases hnone₁.symm.trans (ih₁ hit howns hq)
    · have his := (List.mem_append.mp hi).resolve_left hit
      rw [← h₁.frame hit] at howns hq
      cases hnone₂.symm.trans (ih₂ his howns hq)

/-! ### Without the origins -/

omit [DecidableEq ι] in
theorem map_value_map (f : α → β) (x : Reaction (Item kind α)) :
    (x.map (Item.map f)).map Item.value = (x.map Item.value).map f := by
  cases x <;> rfl

omit [DecidableEq ι] in
theorem release_map (queue : List (Item kind α)) : Tree.release (queue.map Item.value)
    = ((yield .idle queue).1.map Item.value, (yield .idle queue).2.map Item.value) := by
  cases queue <;> rfl

/-- **A blend takes the turns of its tree.** -/
theorem run_react_toTree (h : t.Turns e w out t' w') :
    (t.toTree.react (Stock.behaviour kind) (.ofEvent? e)).run w
      = ((out.map Item.value, t'.toTree), w') := by
  induction h with
  | source i w =>
    have hout : ∀ x : Reaction (kind i).Val,
        (x.map fun v => (⟨⟨i, v⟩, v⟩ : Item kind (kind i).Val)).map Item.value = x := by
      intro x
      cases x <;> rfl
    rw [hout]
    rfl
  | @map p q r t t' w w' out f h ih =>
    rw [toTree, Tree.react, Tree.run_bind_of_run ih, map_value_map]
    cases out <;> rfl
  | @fork p p₁ p₂ q₁ q₂ r n waiting queue t t' s s' w w₁ w₂ out₁ out₂ h₁ h₂ hqueue ih₁ ih₂ =>
    have hvalues : queue.map Item.value = waiting.map Item.value ++
        ((out₁.map Item.value).map n.first).values ++
          ((out₂.map Item.value).map n.second).values := by
      rw [← hqueue, List.map_append, List.map_append, ← map_value_map, ← map_value_map,
        Reaction.values_map Item.value, Reaction.values_map Item.value]
    cases n with
    | both label join =>
      rw [toTree, Fork.tree, Tree.react, Tree.run_bind_of_run ih₁, Tree.run_bind_of_run ih₂]
      have hrelease := release_map queue
      rw [hvalues] at hrelease
      dsimp only
      rw [show join.first = (Fork.both (p := p) label join).first from rfl,
        show join.second = (Fork.both (p := p) label join).second from rfl, hrelease]
      rfl
    | either =>
      -- the values of the parts are outputs as they are
      have hsame : ∀ x : Reaction q₁.Val, x.map id = x := fun x => by cases x <;> rfl
      have hvalues : queue.map Item.value = waiting.map Item.value ++
          (out₁.map Item.value).values ++ (out₂.map Item.value).values := by
        rw [← hsame (out₁.map Item.value), ← hsame (out₂.map Item.value)]
        exact hvalues
      cases e with
      | none =>
        have ih₁ : (t.toTree.react (Stock.behaviour kind) .idle).run w = _ := ih₁
        have ih₂ : (s.toTree.react (Stock.behaviour kind) .idle).run w₁ = _ := ih₂
        have hrelease := release_map queue
        rw [hvalues] at hrelease
        rw [toTree, Fork.tree, Reaction.ofEvent?, Tree.react, Tree.run_bind_of_run ih₁,
          Tree.run_bind_of_run ih₂]
        dsimp only
        rw [hrelease]
        rfl
      | some e =>
        have ih₁ : (t.toTree.react (Stock.behaviour kind) (.event e)).run w = _ := ih₁
        have ih₂ : (s.toTree.react (Stock.behaviour kind) (.event e)).run w₁ = _ := ih₂
        rw [toTree, Fork.tree, Reaction.ofEvent?, Tree.react, Tree.run_bind_of_run ih₁,
          Tree.run_bind_of_run ih₂]
        dsimp only
        rw [← hvalues]
        cases queue with
        | cons x queue => rfl
        | nil => cases out₁ <;> cases out₂ <;> rfl

end Turns

omit [DecidableEq ι] in
theorem drained_toTree {t : Blend kind p q} : t.toTree.Drained ↔ t.held = [] := by
  induction t with
  | source i => exact iff_of_true (Tree.drained_leaf _) rfl
  | map t f ih => exact ih
  | fork n waiting t s iht ihs =>
    rw [held, List.append_eq_nil_iff, List.append_eq_nil_iff, List.map_eq_nil_iff, ← iht, ← ihs,
      ← List.map_eq_nil_iff (f := Item.value)]
    cases n with
    | both label join => exact Tree.drained_both
    | either => exact Tree.drained_either

end Blend
end EventLoop

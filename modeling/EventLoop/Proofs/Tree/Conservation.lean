import EventLoop.Proofs.System.Dispatch
import EventLoop.Proofs.Tree.Blend
import EventLoop.Proofs.Tree.Draining

/-!
# Nothing is lost on the way to the root

Values are put into the producers of a tree while the loop dispatches events to it.
Whatever is put in comes out at the root, once and in order, or is still held in
the tree, or still to come.

## Main definitions

* `Plant` — a root, the producers and the loop, with what was put in and what came out.
* `Plant.Act`, `Plant.act` — what can happen; `Plant.run` for one thing after another.
* `Blend.react` — a blend as a root.
* `Blend.Balanced` — the invariant.

## Main results

* `Blend.Balanced.act` — **nothing that happens unbalances the tree.**
* `Blend.run_conserves` — **what comes out of the root and of each producer**, for all runs.
-/

namespace EventLoop

variable {ι : Type} [DecidableEq ι] {kind : ι → Payload} {τ τ₁ τ₂ α β β₁ β₂ : Type}

/-! ### Plants -/

/-- A root, the producers beside it, and the loop. -/
structure Plant (kind : ι → Payload) (τ β : Type) where
  /-- The root. -/
  root : τ
  /-- The producers. -/
  stock : Stock kind
  /-- The loop. -/
  loop : Loop
  /-- The values that came out of the root, in order. -/
  log : List β
  /-- The values that were put into each producer, in order. -/
  put : (i : ι) → List (kind i).Val

namespace Plant

/-- What can happen. -/
inductive Act (kind : ι → Payload)
  /-- A value is pushed or sent to a producer. -/
  | put (i : ι) (v : (kind i).Val)
  /-- An event is dispatched, with a bound on the turns that follow it. -/
  | dispatch (e : Event) (n : Nat)
  /-- Something else happens to the loop. -/
  | elsewhere (l : Loop)

/-- A root before anything happens. What the producers have is put into them already. -/
def start (root : τ) (stock : Stock kind) (loop : Loop) : Plant kind τ β :=
  ⟨root, stock, loop, [], fun i => (stock i).queue⟩

/-- What a dispatch acts on. -/
def state (s : Plant kind τ β) : ((τ × Stock kind) × List β) × Loop :=
  (((s.root, s.stock), s.log), s.loop)

/-- What is there after a dispatch. -/
def withState (s : Plant kind τ β) (x : ((τ × Stock kind) × List β) × Loop) : Plant kind τ β :=
  ⟨x.1.1.1, x.1.1.2, x.2, x.1.2, s.put⟩

/-- Dispatches an event; says whether the bound on the turns was enough. -/
def dispatch (react : Reaction α → Turn (τ × Stock kind) (Reaction β)) (e : Event) (n : Nat)
    (s : Plant kind τ β) : Bool × Plant kind τ β :=
  let x := (Turn.dispatch (Turn.observed react) n e).run s.state
  (x.1, s.withState x.2)

/-- Pushes or sends a value to a producer. If it is refused, nothing changes. -/
def offer (i : ι) (v : (kind i).Val) (s : Plant kind τ β) : Plant kind τ β :=
  match (s.stock i).put v s.loop.host with
  | some (x, h) =>
    { s with
      stock := Function.update s.stock i x
      loop := { s.loop with host := h }
      put := Function.update s.put i (s.put i ++ [v]) }
  | none => s

/-- What is left after one of them. -/
def act (react : Reaction α → Turn (τ × Stock kind) (Reaction β)) (s : Plant kind τ β) :
    Act kind → Plant kind τ β
  | .put i v => s.offer i v
  | .dispatch e n => (s.dispatch react e n).2
  | .elsewhere l => { s with loop := l }

/-- One after the other. -/
def run (react : Reaction α → Turn (τ × Stock kind) (Reaction β)) (s : Plant kind τ β)
    (acts : List (Act kind)) : Plant kind τ β := acts.foldl (act react) s

/-- The same, seen through functions of the root and of the values. -/
def map (φ : τ₁ → τ₂) (ψ : β₁ → β₂) (s : Plant kind τ₁ β₁) : Plant kind τ₂ β₂ :=
  ⟨φ s.root, s.stock, s.loop, s.log.map ψ, s.put⟩

omit [DecidableEq ι] in
/-- What comes out is kept, but the root and the loop get the dispatch as it is. -/
theorem run_dispatch (react : Reaction α → Turn (τ × Stock kind) (Reaction β)) (e : Event)
    (n : Nat) (s : Plant kind τ β) :
    (Turn.dispatch react n e).run ((s.root, s.stock), s.loop) = ((s.dispatch react e n).1,
      ((s.dispatch react e n).2.root, (s.dispatch react e n).2.stock),
      (s.dispatch react e n).2.loop) :=
  (Turn.simulates_observed react).dispatch n e ((s.root, s.stock), s.log) s.loop

section Simulation

variable {react₁ : Reaction α → Turn (τ₁ × Stock kind) (Reaction β₁)}
  {react₂ : Reaction α → Turn (τ₂ × Stock kind) (Reaction β₂)} {φ : τ₁ → τ₂} {ψ : β₁ → β₂}

omit [DecidableEq ι] in
theorem dispatch_map (h : Turn.Simulates react₁ react₂ (fun r => (φ r.1, r.2)) ψ) (e : Event)
    (n : Nat) (s : Plant kind τ₁ β₁) : (s.map φ ψ).dispatch react₂ e n
      = ((s.dispatch react₁ e n).1, (s.dispatch react₁ e n).2.map φ ψ) := by
  have hrun := h.observed.dispatch n e ((s.root, s.stock), s.log) s.loop
  unfold dispatch
  dsimp only [map, state] at hrun ⊢
  rw [hrun]
  rfl

theorem offer_map (i : ι) (v : (kind i).Val) (s : Plant kind τ₁ β₁) :
    (s.map φ ψ).offer i v = (s.offer i v).map φ ψ := by
  unfold offer
  dsimp only [map]
  cases (s.stock i).put v s.loop.host <;> rfl

/-- The run of a root that behaves as another. -/
theorem run_map (h : Turn.Simulates react₁ react₂ (fun r => (φ r.1, r.2)) ψ)
    (acts : List (Act kind)) : ∀ s : Plant kind τ₁ β₁,
      (s.map φ ψ).run react₂ acts = (s.run react₁ acts).map φ ψ := by
  induction acts with
  | nil => exact fun s => rfl
  | cons a acts ih =>
    intro s
    have hact : (s.map φ ψ).act react₂ a = (s.act react₁ a).map φ ψ := by
      cases a with
      | put i v => exact offer_map i v s
      | dispatch e n => exact congrArg Prod.snd (dispatch_map h e n s)
      | elsewhere l => rfl
    show ((s.map φ ψ).act react₂ a).run react₂ acts = ((s.act react₁ a).run react₁ acts).map φ ψ
    rw [hact]
    exact ih _

end Simulation
end Plant

/-! ### Trees as roots -/

/-- A tree of producers as a root. -/
def Stock.react {p q : Payload} (input : Reaction p.Val) :
    Turn (Tree (Stock.Leaf kind) (fun p q => p.Val → q.Val) p q × Stock kind) (Reaction q.Val) :=
  Turn.ofTree (Stock.behaviour kind) Prod.mk id input

namespace Blend

variable {p q : Payload} {t₀ t : Blend kind p q} {s : Plant kind (Blend kind p q) (Item kind q.Val)}

/-- A blend as a root. -/
def react (input : Reaction p.Val) :
    Turn (Blend kind p q × Stock kind) (Reaction (Item kind q.Val)) := fun x =>
  let y := x.1.1.turn input.event? (x.1.2, x.2)
  (y.1, ((y.2.1, y.2.2.1), y.2.2.2))

/-- A blend as a root behaves as its tree. -/
theorem simulates_react : Turn.Simulates
    (react : Reaction p.Val → Turn (Blend kind p q × Stock kind) (Reaction (Item kind q.Val)))
    Stock.react (fun r => (r.1.toTree, r.2)) Item.value := by
  intro input hin r l
  have hinput : input = .ofEvent? input.event? := by
    cases input with
    | value v => cases hin
    | idle => rfl
    | event e => rfl
  have hturn := (r.1.turns_turn input.event? (r.2, l)).run_react_toTree
  rw [← hinput] at hturn
  exact Turn.run_ofTree id hturn

theorem run_observed {t t' : Blend kind p q} {stock stock' : Stock kind} {l l' : Loop}
    (input : Reaction p.Val) {out : Reaction (Item kind q.Val)}
    (h : t.turn input.event? (stock, l) = (out, t', stock', l')) (log : List (Item kind q.Val)) :
    (Turn.observed react input).run (((t, stock), log), l)
      = (out, ((t', stock'), log ++ out.values), l') := by
  show (fun y : Reaction (Item kind q.Val) × Blend kind p q × Stock kind × Loop =>
    (y.1, ((y.2.1, y.2.2.1), log ++ y.1.values), y.2.2.2)) (t.turn input.event? (stock, l)) = _
  rw [h]

/-- What came out, what is held and what is still to come are what was put in, for each producer
of the tree `t₀`, and what came out is what becomes of it there. -/
structure Balanced (t₀ : Blend kind p q) (s : Plant kind (Blend kind p q) (Item kind q.Val)) :
    Prop where
  sources_eq : s.root.sources = t₀.sources
  trace_eq : ∀ o, s.root.trace o = t₀.trace o
  sound : s.root.Sound
  logged : ∀ x ∈ s.log, t₀.trace x.origin = some x.value
  balance : ∀ i ∈ t₀.sources, Origin.allOf i (s.log.map Item.origin) ++
    Origin.allOf i s.root.held ++ (s.stock i).queue = s.put i

namespace Balanced

/-- A turn of the tree. -/
theorem turn {stock : Stock kind} {loop : Loop} {log : List (Item kind q.Val)}
    {put : (i : ι) → List (kind i).Val} (hnd : t₀.sources.Nodup)
    (hs : t₀.Balanced ⟨t, stock, loop, log, put⟩) (e : Option Event) :
    t₀.Balanced ⟨(t.turn e (stock, loop)).2.1, (t.turn e (stock, loop)).2.2.1,
      (t.turn e (stock, loop)).2.2.2, log ++ (t.turn e (stock, loop)).1.values, put⟩ := by
  have hturn := t.turns_turn e (stock, loop)
  have hsources : t.sources = t₀.sources := hs.sources_eq
  have hnd' : t.sources.Nodup := hsources ▸ hnd
  obtain ⟨hsound, hout⟩ := hturn.sound hnd' hs.sound
  refine ⟨hturn.sources_eq.trans hs.sources_eq, fun o => (hturn.trace_eq o).trans (hs.trace_eq o),
    hsound, fun x hx => ?_, fun i hi => ?_⟩
  · rcases List.mem_append.mp hx with hx | hx
    · exact hs.logged x hx
    · exact (hs.trace_eq x.origin).symm.trans (hout x hx)
  · have hkeep := hturn.conserved hnd' hs.sound (hsources ▸ hi)
    calc
      Origin.allOf i ((log ++ (t.turn e (stock, loop)).1.values).map Item.origin) ++
          Origin.allOf i (t.turn e (stock, loop)).2.1.held ++
          ((t.turn e (stock, loop)).2.2.1 i).queue
        = Origin.allOf i (log.map Item.origin) ++
            (Origin.allOf i ((t.turn e (stock, loop)).1.values.map Item.origin) ++
              Origin.allOf i (t.turn e (stock, loop)).2.1.held ++
              ((t.turn e (stock, loop)).2.2.1 i).queue) := by
          simp only [List.map_append, Origin.allOf_append, List.append_assoc]
      _ = Origin.allOf i (log.map Item.origin) ++
            (Origin.allOf i t.held ++ (stock i).queue) := by rw [hkeep]
      _ = put i := by
          rw [← List.append_assoc]
          exact hs.balance i hi

theorem dispatch (hnd : t₀.sources.Nodup) (hs : t₀.Balanced s) (e : Event) (n : Nat) :
    t₀.Balanced (s.dispatch react e n).2 := by
  refine Turn.dispatch_keeps (P := fun x => t₀.Balanced (s.withState x)) (x := s.state)
    (fun r l n h => ?_) (fun input _ x h => ?_) n e hs
  · exact ⟨h.sources_eq, h.trace_eq, h.sound, h.logged, h.balance⟩
  · exact h.turn hnd input.event?

/-- What is put into a producer is the last of what is still to come. -/
theorem offer (hs : t₀.Balanced s) (i : ι) (v : (kind i).Val) : t₀.Balanced (s.offer i v) := by
  unfold Plant.offer
  split
  next x h hput =>
    refine ⟨hs.sources_eq, hs.trace_eq, hs.sound, hs.logged, fun j hj => ?_⟩
    have hbalance := hs.balance j hj
    by_cases hji : j = i
    · subst hji
      simp only [Function.update_self, Producer.queue_put hput, ← hbalance, List.append_assoc]
    · simpa only [Function.update_of_ne hji] using hbalance
  next => exact hs

/-- **Nothing that happens unbalances the tree.** -/
theorem act (hnd : t₀.sources.Nodup) (hs : t₀.Balanced s) (a : Plant.Act kind) :
    t₀.Balanced (s.act react a) := by
  cases a with
  | put i v => exact hs.offer i v
  | dispatch e n => exact hs.dispatch hnd e n
  | elsewhere l => exact ⟨hs.sources_eq, hs.trace_eq, hs.sound, hs.logged, hs.balance⟩

theorem run (hnd : t₀.sources.Nodup) (acts : List (Plant.Act kind)) :
    ∀ {s : Plant kind (Blend kind p q) (Item kind q.Val)}, t₀.Balanced s →
      t₀.Balanced (s.run react acts) := by
  induction acts with
  | nil => exact fun hs => hs
  | cons a acts ih => exact fun hs => ih (hs.act hnd a)

end Balanced

/-- A turn without input, between the values of a dispatch. -/
theorem idle_turn {x y : ((Blend kind p q × Stock kind) × List (Item kind q.Val)) × Loop}
    {out : Reaction (Item kind q.Val)} (hnd : x.1.1.1.sources.Nodup)
    (h : (Turn.observed react (.idle : Reaction p.Val)).run x = (out, y)) :
    y.1.1.1.sources = x.1.1.1.sources ∧
      (out.isValue = true → y.1.1.1.load y.1.1.2 < x.1.1.1.load x.1.1.2) ∧
      (out.isValue = false → y.1.1.1.held = [] ∧ ∀ j ∈ x.1.1.1.sources,
        (y.1.1.2 j).isMono = false → (y.1.1.2 j).queue = []) := by
  obtain ⟨⟨⟨t, stock⟩, log⟩, l⟩ := x
  have hturn := t.turns_turn none (stock, l)
  rcases hrun : t.turn none (stock, l) with ⟨out', t', stock', l'⟩
  rw [hrun] at hturn
  obtain ⟨rfl, rfl⟩ := Prod.mk.inj ((run_observed .idle hrun log).symm.trans h)
  refine ⟨hturn.sources_eq, fun hout => ?_, fun hout => hturn.drained hnd hout⟩
  have hload := hturn.load_eq hnd
  cases out' with
  | value v =>
    show t'.load stock' < t.load stock
    dsimp only [Reaction.values_value, List.length_singleton] at hload
    omega
  | idle => cases hout
  | event e => cases hout

/-- **After an event of a producer that has values, nothing is held, and nothing is still to come**
except from producers that give a value on their own event only. -/
theorem dispatch_done (hnd : s.root.sources.Nodup) {i : ι} (hi : i ∈ s.root.sources) {e : Event}
    (howns : (s.stock i).owns e = true) (hq : (s.stock i).queue ≠ []) {n : Nat}
    (hn : s.root.load s.stock ≤ n) : (s.dispatch react e n).1 = true ∧
      (s.dispatch react e n).2.root.held = [] ∧
      ∀ j ∈ s.root.sources, ((s.dispatch react e n).2.stock j).isMono = false →
        ((s.dispatch react e n).2.stock j).queue = [] := by
  have hturn := s.root.turns_turn (some e) (s.stock, s.loop)
  rcases hrun : s.root.turn (some e) (s.stock, s.loop) with ⟨out, t', stock', l'⟩
  rw [hrun] at hturn
  have hvalue := hturn.isValue_of_owns hi howns hq
  cases out with
  | idle => cases hvalue
  | event e => cases hvalue
  | value v =>
    have hfirst := run_observed (.event e) hrun s.log
    -- one value is out, so fewer are to come than there may be turns
    have hless : t'.load stock' < n := by
      have hload := hturn.load_eq hnd
      dsimp only [Reaction.values_value, List.length_singleton] at hload
      omega
    have hdone := Turn.redrive_done
      (P := fun x => x.1.1.1.sources = s.root.sources)
      (Q := fun x => x.1.1.1.held = [] ∧ ∀ j ∈ s.root.sources, (x.1.1.2 j).isMono = false →
        (x.1.1.2 j).queue = [])
      (fun x => x.1.1.1.load x.1.1.2) (fun _ _ _ hx => by exact ⟨hx, rfl⟩)
      (fun x out y hidle hx => by
        obtain ⟨hsources, hsmaller, hlast⟩ := idle_turn (hx ▸ hnd) hidle
        rw [hx] at hsources hlast
        exact ⟨hsources, hsmaller, hlast⟩)
      n (((t', stock'), s.log ++ [v]), l') hturn.sources_eq hless
    unfold Plant.dispatch
    dsimp only [Plant.state]
    rw [Turn.run_dispatch_of_run hfirst]
    exact hdone

theorem balanced_start (ht : t.held = []) (stock : Stock kind) (l : Loop) :
    t.Balanced (Plant.start t stock l) where
  sources_eq := rfl
  trace_eq _ := rfl
  sound := sound_of_held ht
  logged := nofun
  balance i _ := by simp [Plant.start, ht]

/-- **What comes out of the root and of each producer.**  Let values be pushed and sent to the
producers of a tree `t`, and events be dispatched to it, in any order.  Every value `x` that came
out of the root goes back to a value that was put into a producer, and is what becomes of it on
its way.  For each producer these are, in order, the first that were put into it; the next are
held in the tree, and the others still to come.  Once an event of a producer with values is
dispatched, none is held, and none is to come except from a `Mono`. -/
theorem run_conserves (hnd : t.sources.Nodup) (ht : t.toTree.Drained) (stock : Stock kind)
    (l : Loop) (acts : List (Plant.Act kind)) :
    let s := (Plant.start t stock l).run react acts
    let u := (Plant.start t.toTree stock l).run Stock.react acts
    u = s.map toTree Item.value ∧
    (∀ x ∈ s.log, t.trace x.origin = some x.value) ∧
    (∀ i ∈ t.sources, Origin.allOf i (s.log.map Item.origin) ++ Origin.allOf i s.root.held ++
      (u.stock i).queue = u.put i) ∧
    ∀ i ∈ t.sources, ∀ e n, (u.stock i).owns e = true → (u.stock i).queue ≠ [] →
      s.root.load u.stock ≤ n →
      let d := (Turn.dispatch Stock.react n e).run ((u.root, u.stock), u.loop)
      d.1 = true ∧ d.2.1.1.Drained ∧
        ∀ j ∈ t.sources, (d.2.1.2 j).isMono = false → (d.2.1.2 j).queue = [] := by
  intro s u
  have hs : t.Balanced s := .run hnd acts (balanced_start (drained_toTree.mp ht) stock l)
  have hu : u = s.map toTree Item.value :=
    Plant.run_map simulates_react acts (Plant.start t stock l)
  have hstock : u.stock = s.stock := congrArg Plant.stock hu
  have hput : u.put = s.put := congrArg Plant.put hu
  refine ⟨hu, hs.logged, fun i hi => ?_, fun i hi e n howns hq hn => ?_⟩
  -- the blend has the same producers as its tree, and the same was put into them
  · rw [hstock, hput]
    exact hs.balance i hi
  · rw [hstock] at howns hq hn
    rw [← hs.sources_eq] at hnd hi ⊢
    -- the dispatch to the blend ends, and that to its tree is seen through it
    obtain ⟨hend, hheld, hempty⟩ := dispatch_done hnd hi howns hq hn
    have hmap : u.dispatch Stock.react e n
        = ((s.dispatch react e n).1, (s.dispatch react e n).2.map toTree Item.value) := by
      rw [hu]
      exact Plant.dispatch_map simulates_react e n s
    have hrun := Plant.run_dispatch Stock.react e n u
    rw [hmap] at hrun
    intro d
    have hd : d = _ := hrun
    rw [hd]
    exact ⟨hend, drained_toTree.mpr hheld, hempty⟩

/-- A generator beside the receiving end of a channel, whose values are raised by ten. -/
def pair : Blend (fun _ : Bool => Payload.int) .unit .int :=
  .fork (.both none .same) [] (.source false) (.map (.source true) (· + 10))

/-- The generator has two values, and the channel has one. -/
def pairStock : Stock fun _ : Bool => Payload.int
  | false => .generator ⟨[1, 2], { Evented.new .hollow .readable with token := some 3 }⟩
  | true =>
    .signal { Evented.new ⟨0, .hollow⟩ .readable with token := some 4 }
      ⟨[(0, ⟨0, .unbounded, [7], .hollow, 1, true, true, 0⟩)]⟩

/-- A third value is pushed to the generator. -/
def pairRun : Plant (fun _ : Bool => Payload.int)
    (Tree (Stock.Leaf fun _ : Bool => Payload.int) (fun p q => p.Val → q.Val) .unit .int) Int64 :=
  (Plant.start pair.toTree pairStock ⟨Host.initial .silent, System.absent⟩).run Stock.react
    [.put false 3]

theorem run_conserves_pair : pair.sources.Nodup ∧ pair.toTree.Drained ∧
    (pairRun.stock false).owns ⟨3, .nothing⟩ = true ∧ (pairRun.stock false).queue = [1, 2, 3] ∧
    ((Turn.dispatch Stock.react 9 ⟨3, .nothing⟩).run
      ((pairRun.root, pairRun.stock), pairRun.loop)).2.1.1.Drained := by
  have hnd : pair.sources.Nodup := by decide
  have hdrained : pair.toTree.Drained := drained_toTree.mpr rfl
  obtain ⟨-, -, -, hdone⟩ := run_conserves hnd hdrained pairStock
    ⟨Host.initial .silent, System.absent⟩ [.put false 3]
  have howns : (pairRun.stock false).owns ⟨3, .nothing⟩ = true := by decide
  have hqueue : (pairRun.stock false).queue = [1, 2, 3] := by decide
  obtain ⟨-, hdone, -⟩ := hdone false (by decide) ⟨3, .nothing⟩ 9 howns (by decide) (by decide)
  exact ⟨hnd, hdrained, howns, hqueue, hdone⟩

end Blend
end EventLoop

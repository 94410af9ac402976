import EventLoop.Proofs.System.Calls
import EventLoop.Proofs.Tree.Fleet
import EventLoop.System.Root
import Mathlib.Algebra.Ring.Nat

/-!
# How long a dispatch lasts

The loop hands an event to its root and then gives it turns without input as long as
values come out.  In a tree of stages every such turn takes a value from a queue, a
producer or a backlog: not always to the outside, since it may go from one to the
next, but always nearer to it.

A value that crosses over in a chain may be held behind it, in any number.  Turns
without input never get there, so what is held there does not count.

## Main definitions

* `Fleet.stations` — the stations of a tree.
* `Fleet.reach` — the values that turns without input can still bring out of a tree.
* `Fleet.Quiet` — no function makes anything arrive at some stations.

## Main results

* `Fleet.reach_le_of_stepped` — **every value that comes out is one less within reach.**
* `Fleet.reach_le` — what is within reach is held, or the supply of a station.
* `Turn.exists_redriven`, `Turn.exists_dispatched` — with such a measure, turns without input
  come to an end, and so does a dispatch.
* `Fleet.exists_redrives` — **a dispatch ends, after one turn more than there are values and
  pending connections.**
-/

namespace EventLoop

/-! ### Turns that bring a measure down -/

namespace Turn

variable {ρ α β : Type} {react : Reaction α → Turn ρ (Reaction β)} {P : ρ × Loop → Prop}

/-- **If every value that comes out is one less to come, turns without input come to an end**, after
one turn more than there are values, whatever more would be allowed. -/
theorem exists_redriven (load : ρ × Loop → Nat)
    (hnote : ∀ r l n, P (r, l) → P (r, l.note n) ∧ load (r, l.note n) = load (r, l))
    (hidle : ∀ x out y, (react .idle).run x = (out, y) → P x →
      P y ∧ out.values.length + load y ≤ load x) (k : Nat) :
    ∀ x, P x → load x = k → ∃ (calls : List (Call α β)) (y : ρ × Loop),
      calls.length ≤ k + 1 ∧ (∀ call ∈ calls, call.1 = .idle) ∧
        ∀ n, calls.length ≤ n → ∀ before, (redrive (logged react) n).run ((x.1, before), x.2)
          = (true, (y.1, before ++ calls), y.2) := by
  induction k using Nat.strong_induction_on with
  | h k ih =>
    intro x hx hk
    obtain ⟨hx', hsame⟩ := hnote x.1 x.2 .valueDropped hx
    rcases hrun : (react .idle).run (x.1, x.2.note .valueDropped) with ⟨out, y⟩
    obtain ⟨hy, hless⟩ := hidle _ out y hrun hx'
    have hfirst : ∀ n before, (redrive (logged react) (n + 1)).run ((x.1, before), x.2)
        = if out.isValue then (redrive (logged react) n).run ((y.1, before ++ [(.idle, out)]), y.2)
          else (true, (y.1, before ++ [(.idle, out)]), y.2) := fun n before =>
      run_redrive_succ (run_logged hrun before) n
    rw [Reaction.length_values, hsame, hk] at hless
    cases hout : out.isValue with
    | false =>
      refine ⟨[(.idle, out)], y, Nat.le_add_left 1 k, ?_, fun n hn before => ?_⟩
      · exact fun call hcall => congrArg Prod.fst (List.mem_singleton.mp hcall)
      · obtain ⟨n, rfl⟩ := Nat.exists_eq_succ_of_ne_zero (Nat.ne_of_gt hn)
        rw [hfirst, hout]
        rfl
    | true =>
      rw [hout, Bool.toNat_true] at hless
      obtain ⟨calls, z, hlen, hinput, hcalls⟩ := ih (load y) (by omega) y hy rfl
      refine ⟨(.idle, out) :: calls, z, by rw [List.length_cons]; omega, ?_, fun n hn before => ?_⟩
      · exact List.forall_mem_cons.mpr ⟨rfl, hinput⟩
      · rw [List.length_cons] at hn
        obtain ⟨n, rfl⟩ := Nat.exists_eq_succ_of_ne_zero (Nat.ne_of_gt (Nat.zero_lt_of_lt hn))
        rw [hfirst, hout, if_pos rfl, hcalls n (Nat.le_of_succ_le_succ hn), List.append_assoc]
        rfl

/-- A dispatch of an event then ends as well: after no more turns without input than there are
values when the event arrives, those that it gives rise to included. -/
theorem exists_dispatched (load : ρ × Loop → Nat)
    (hnote : ∀ r l n, P (r, l) → P (r, l.note n) ∧ load (r, l.note n) = load (r, l))
    (hidle : ∀ x out y, (react .idle).run x = (out, y) → P x →
      P y ∧ out.values.length + load y ≤ load x) {e : Event} {x : ρ × Loop} {k : Nat}
    (hevent : ∀ out y, (react (.event e)).run x = (out, y) → P y ∧ out.values.length + load y ≤ k) :
    ∃ (out : Reaction β) (calls : List (Call α β)) (y : ρ × Loop),
      calls.length ≤ k ∧ (∀ call ∈ calls, call.1 = .idle) ∧ ∀ n, calls.length ≤ n →
        (dispatch react n e).run x = (true, y) ∧
        (dispatch (logged react) n e).run ((x.1, []), x.2)
          = (true, (y.1, (.event e, out) :: calls), y.2) := by
  rcases hrun : (react (.event e)).run x with ⟨out, y⟩
  obtain ⟨hy, hless⟩ := hevent out y hrun
  -- what is done with a record is done without it
  have hplain : ∀ n r, (dispatch (logged react) n e).run ((x.1, []), x.2) = r →
      (dispatch react n e).run x = (r.1, r.2.1.1, r.2.2) := by
    rintro n r rfl
    exact (simulates_logged react).dispatch n e (x.1, []) x.2
  have hlogged := fun n => run_dispatch_of_run (run_logged hrun []) n
  rw [Reaction.length_values] at hless
  cases hout : out.isValue with
  | false =>
    rw [hout] at hlogged
    exact ⟨out, [], y, Nat.zero_le _, fun _ h => (nomatch h), fun n _ =>
      ⟨hplain n _ (hlogged n), hlogged n⟩⟩
  | true =>
    obtain ⟨calls, z, hlen, hinput, hcalls⟩ := exists_redriven load hnote hidle _ y hy rfl
    rw [hout, Bool.toNat_true] at hless
    refine ⟨out, calls, z, by omega, hinput, fun n hn => ?_⟩
    have hdone := (hlogged n).trans ((if_pos hout).trans (hcalls n hn _))
    exact ⟨hplain n _ hdone, hdone⟩

end Turn

namespace Fleet

variable {ι κ σ : Type} {kind : ι → Payload} {topic : κ → Payload} {F : Payload → Payload → Type}
  {p q r : Payload}

/-! ### The stations of a tree -/

/-- The stations of a tree, from the first leaf to the last. -/
def stations (t : Tree (Leaf kind topic) F p q) : List ι :=
  t.leaves.filterMap fun l => l.2.2.station?

/-- The values that turns without input can still bring out of a tree, if `d` says how many each
station has. The second part of a chain has no such turns. -/
def reach (d : ι → Nat) {p q : Payload} : Tree (Leaf kind topic) F p q → Nat
  | .leaf l => l.station?.elim 0 d
  | .consume => 0
  | .boxed content => reach d content
  | .chain first _ => reach d first
  | .map source _ => reach d source
  | .both _ _ waiting first second => waiting.length + (reach d first + reach d second)
  | .either waiting first second => waiting.length + (reach d first + reach d second)

section Stations

variable {p₁ p₂ q₁ q₂ : Payload}

theorem stations_chain (t : Tree (Leaf kind topic) F p q) (s : Tree (Leaf kind topic) F q r) :
    stations (.chain t s) = stations t ++ stations s := List.filterMap_append

theorem stations_both (label : Option String) (join : Join q₁ q₂ r) (waiting : List r.Val)
    (t : Tree (Leaf kind topic) F p q₁) (s : Tree (Leaf kind topic) F p q₂) :
    stations (.both label join waiting t s) = stations t ++ stations s := List.filterMap_append

theorem stations_either (waiting : List q.Val) (t : Tree (Leaf kind topic) F p₁ q)
    (s : Tree (Leaf kind topic) F p₂ q) :
    stations (.either waiting t s) = stations t ++ stations s := List.filterMap_append

end Stations

variable {d d' : ι → Nat}

/-- What is within reach is held, or the supply of a station. -/
theorem reach_le (d : ι → Nat) (t : Tree (Leaf kind topic) F p q) :
    reach d t ≤ t.held.sum + ((stations t).map d).sum := by
  induction t with
  | leaf l =>
    show l.station?.elim 0 d ≤ 0 + ((stations (.leaf l)).map d).sum
    cases l <;> simp [Leaf.station?, stations, Tree.leaves]
  | consume => exact Nat.zero_le _
  | boxed t ih => exact ih
  | map t f ih => exact ih
  | chain t s iht ihs =>
    rw [reach, Tree.held, stations_chain, List.map_append, List.sum_append, List.sum_append]
    omega
  | both label join waiting t s iht ihs =>
    rw [reach, Tree.held, stations_both, List.map_append, List.sum_append, List.sum_cons,
      List.sum_append]
    omega
  | either waiting t s iht ihs =>
    rw [reach, Tree.held, stations_either, List.map_append, List.sum_append, List.sum_cons,
      List.sum_append]
    omega

theorem reach_mono {t : Tree (Leaf kind topic) F p q} (h : ∀ i ∈ stations t, d i ≤ d' i) :
    reach d t ≤ reach d' t := by
  induction t with
  | leaf l =>
    cases l with
    | station i => exact h i List.mem_cons_self
    | publish k => exact Nat.le_refl 0
    | decode => exact Nat.le_refl 0
  | consume => exact Nat.le_refl 0
  | boxed t ih => exact ih h
  | map t f ih => exact ih h
  | chain t s iht ihs =>
    rw [stations_chain, List.forall_mem_append] at h
    exact iht h.1
  | both label join waiting t s iht ihs =>
    rw [stations_both, List.forall_mem_append] at h
    exact Nat.add_le_add_left (Nat.add_le_add (iht h.1) (ihs h.2)) _
  | either waiting t s iht ihs =>
    rw [stations_either, List.forall_mem_append] at h
    exact Nat.add_le_add_left (Nat.add_le_add (iht h.1) (ihs h.2)) _

/-- The tokens of some stations. -/
def tokens (fleet : Fleet kind topic σ) (is : List ι) : List Token :=
  is.flatMap fun i => (fleet.station i).token.toList

theorem tokens_cons (fleet : Fleet kind topic σ) (i : ι) (is : List ι) :
    tokens fleet (i :: is) = (fleet.station i).token.toList ++ tokens fleet is := List.flatMap_cons

/-! ### One turn -/

theorem due_some (e : Event) (w : World kind topic σ) (i : ι) :
    due (some e) w i = supply w i + if (w.1.station i).token = some e.token then 1 else 0 := by
  simp only [due, Station.due, supply, Option.mem_some_iff, exists_eq_left']

theorem supply_note (fleet : Fleet kind topic σ) (l : Loop) (n : Notice) :
    supply (fleet, l.note n) = supply (fleet, l) := by
  have hstation : ∀ {p : Payload} (x : Station p), x.supply (l.host.note n) = x.supply l.host := by
    intro p x
    cases x <;> rfl
  exact funext fun i => hstation (fleet.station i)

/-- Where nothing has arrived, no more is within reach. -/
theorem Eases.reach_le {A : ι → Prop} {w w' : World kind topic σ} (h : Eases A w w')
    {t : Tree (Leaf kind topic) F p q} (ht : ∀ i ∈ stations t, A i) :
    reach (supply w') t ≤ reach (supply w) t := reach_mono fun i hi => h.supply_le i (ht i hi)

/-- No function makes anything arrive at some stations, or gives one of them another token. -/
def Quiet (A : ι → Prop) (apply : {p q : Payload} → F p q → p.Val →
    StateM (World kind topic σ) q.Val) : Prop :=
  ∀ {p q : Payload} (f : F p q) (v : p.Val) (w : World kind topic σ),
    Eases A w ((apply f v).run w).2

section Turns

variable [DecidableEq ι] [DecidableEq κ]
  {apply : {p q : Payload} → F p q → p.Val → StateM (World kind topic σ) q.Val}
  {t t' : Tree (Leaf kind topic) F p q} {w w' : World kind topic σ} {input : Reaction p.Val}
  {out : Reaction q.Val} {A : ι → Prop}

omit [DecidableEq ι] [DecidableEq κ] in
theorem Quiet.eases (hquiet : Quiet A apply) {f : F p q} {v : p.Val} {x : q.Val}
    (hf : (apply f v).run w = (x, w')) : Eases A w w' := by
  have h := hquiet f v w
  rwa [hf] at h

/-- A turn makes nothing arrive. -/
theorem eases_of_stepped (h : Stepped (behaviour apply) t w input out t' w')
    (hquiet : Quiet A apply) : Eases A w w' := by
  induction h with
  | leaf h => exact .react A h
  | consume w input => exact .refl w
  | boxed _ ih => exact ih
  | cross _ _ iht ihs => exact iht.trans ihs
  | stay _ _ ih => exact ih
  | mapped _ hf ih => exact ih.trans (hquiet.eases hf)
  | unmapped _ _ ih => exact ih
  | both _ _ iht ihs => exact iht.trans ihs
  | left _ ih => exact ih
  | right _ ih => exact ih
  | fork _ _ _ _ iht ihs => exact iht.trans ihs

/-- A turn keeps the stations. -/
theorem stations_of_stepped (h : Stepped (behaviour apply) t w input out t' w') :
    stations t' = stations t := by
  induction h with
  | leaf h => rw [leaf_eq h]
  | consume w input => rfl
  | boxed _ ih => exact ih
  | cross _ _ iht ihs => rw [stations_chain, stations_chain, iht, ihs]
  | stay _ _ ih => rw [stations_chain, stations_chain, ih]
  | mapped _ _ ih => exact ih
  | unmapped _ _ ih => exact ih
  | both _ _ iht ihs => rw [stations_both, stations_both, iht, ihs]
  | left _ ih => rw [stations_either, stations_either, ih]
  | right _ ih => rw [stations_either, stations_either, ih]
  | fork _ _ _ _ iht ihs => rw [stations_either, stations_either, iht, ihs]

/-- Two parts have their turns, and a queue gives one value. -/
theorem reach_le_of_parts {p₁ p₂ q₁ q₂ : Payload} {w₁ w₂ : World kind topic σ}
    {t t' : Tree (Leaf kind topic) F p₁ q₁} {s s' : Tree (Leaf kind topic) F p₂ q₂}
    {input₁ : Reaction p₁.Val} {input₂ : Reaction p₂.Val} {out₁ : Reaction q₁.Val}
    {out₂ : Reaction q₂.Val} (hquiet : Quiet A apply) (ht : ∀ i ∈ stations t, A i)
    (hs : ∀ i ∈ stations s, A i) (h₁ : Stepped (behaviour apply) t w input₁ out₁ t' w₁)
    (h₂ : Stepped (behaviour apply) s w₁ input₂ out₂ s' w₂) {e : Option Event}
    (ih₁ : out₁.values.length + reach (supply w₁) t' ≤ reach (due e w) t)
    (ih₂ : out₂.values.length + reach (supply w₂) s' ≤ reach (due e w₁) s) :
    out₁.values.length + out₂.values.length + (reach (supply w₂) t' + reach (supply w₂) s')
      ≤ reach (due e w) t + reach (due e w) s := by
  have hfirst : reach (supply w₂) t' ≤ reach (supply w₁) t' :=
    (eases_of_stepped h₂ hquiet).reach_le (stations_of_stepped h₁ ▸ ht)
  have hsecond : reach (due e w₁) s ≤ reach (due e w) s := reach_mono fun i hi =>
    (eases_of_stepped h₁ hquiet).due_le e (hs i hi)
  omega

/-- **Every value that comes out is one less within reach.** -/
theorem reach_le_of_stepped (h : Stepped (behaviour apply) t w input out t' w')
    (hquiet : Quiet A apply) (ht : ∀ i ∈ stations t, A i) (hin : input.isValue = false) :
    out.values.length + reach (supply w') t' ≤ reach (due input.event? w) t := by
  induction h with
  | leaf h =>
    rw [leaf_eq h]
    exact react_le h hin
  | consume w input =>
    rw [Reaction.values_eq_nil_iff.mpr hin]
    exact Nat.le_refl 0
  | boxed _ ih => exact ih ht hin
  | @cross _ _ _ t t' s s' w w₁ w₂ input v out h₁ h₂ ih₁ ih₂ =>
    -- at most one value for the one that crossed over, whatever is held behind
    have hone : out.values.length ≤ 1 := out.length_values ▸ Bool.toNat_le out.isValue
    rw [stations_chain, List.forall_mem_append] at ht
    have ih : 1 + reach (supply w₁) t' ≤ reach (due input.event? w) t := ih₁ ht.1 hin
    have hkept : reach (supply w₂) t' ≤ reach (supply w₁) t' :=
      (eases_of_stepped h₂ hquiet).reach_le (stations_of_stepped h₁ ▸ ht.1)
    rw [reach, reach]
    omega
  | @stay _ _ _ t t' s w w' input out h₁ hout ih =>
    rw [stations_chain, List.forall_mem_append] at ht
    have ih := ih ht.1 hin
    rw [Reaction.values_eq_nil_iff.mpr hout] at ih
    rw [Reaction.values_eq_nil_iff.mpr out.isValue_pass]
    exact ih
  | @mapped _ _ _ t t' f w w₁ w₂ input v x h₁ hf ih =>
    have ih : 1 + reach (supply w₁) t' ≤ reach (due input.event? w) t := ih ht hin
    have hkept : reach (supply w₂) t' ≤ reach (supply w₁) t' :=
      (hquiet.eases hf).reach_le (stations_of_stepped h₁ ▸ ht)
    show 1 + reach (supply w₂) t' ≤ reach (due input.event? w) t
    omega
  | @unmapped _ _ _ t t' f w w' input out h₁ hout ih =>
    have ih := ih ht hin
    rw [Reaction.values_eq_nil_iff.mpr hout] at ih
    rw [Reaction.values_eq_nil_iff.mpr out.isValue_pass]
    exact ih
  | @both _ _ _ _ label join waiting t t' s s' w w₁ w₂ input out₁ out₂ h₁ h₂ ih₁ ih₂ =>
    rw [stations_both, List.forall_mem_append] at ht
    obtain ⟨ht₁, ht₂⟩ := ht
    have hparts := reach_le_of_parts hquiet ht₁ ht₂ h₁ h₂ (ih₁ ht₁ hin) (ih₂ ht₂ hin)
    have hqueue := Tree.length_release
      (waiting ++ (out₁.map join.first).values ++ (out₂.map join.second).values)
    rw [List.length_append, List.length_append, Reaction.values_map, Reaction.values_map,
      List.length_map, List.length_map] at hqueue
    rw [reach, reach, Reaction.values_map, Reaction.values_map]
    omega
  | left _ _ => cases hin
  | right _ _ => cases hin
  | @fork _ _ _ waiting t t' s s' w w₁ w₂ input out₁ out₂ out _ h₁ h₂ hout ih₁ ih₂ =>
    rw [stations_either, List.forall_mem_append] at ht
    obtain ⟨ht₁, ht₂⟩ := ht
    have ih₁ := ih₁ ht₁ input.isValue_pass
    have ih₂ := ih₂ ht₂ input.isValue_pass
    rw [Reaction.event?_pass] at ih₁ ih₂
    have hparts := reach_le_of_parts hquiet ht₁ ht₂ h₁ h₂ ih₁ ih₂
    have hqueue := Tree.length_release (waiting ++ out₁.values ++ out₂.values)
    rw [List.length_append, List.length_append, Reaction.length_values (Tree.release _).1, ← hout,
      ← Reaction.length_values] at hqueue
    rw [reach, reach]
    omega

/-- The same for a turn of the tree as the root of the loop. -/
theorem reach_le_of_run {x y : (Tree (Leaf kind topic) F p q × Fleet kind topic σ) × Loop}
    (h : (Turn.ofTree (behaviour apply) Prod.mk id input).run x = (out, y))
    (hquiet : Quiet A apply) (ht : ∀ i ∈ stations x.1.1, A i) (hin : input.isValue = false) :
    stations y.1.1 = stations x.1.1 ∧ out.values.length + reach (supply (y.1.2, y.2)) y.1.1
      ≤ reach (due input.event? (x.1.2, x.2)) x.1.1 := by
  have hturn := x.1.1.stepped_react (behaviour apply) input (x.1.2, x.2)
  cases h
  exact ⟨stations_of_stepped hturn, reach_le_of_stepped hturn hquiet ht hin⟩

omit [DecidableEq ι] [DecidableEq κ] in
/-- An event belongs to one station at most, if no two have the same token. -/
theorem sum_due_le {is : List ι} (hnd : (tokens w.1 is).Nodup) (e : Event) :
    (is.map (due (some e) w)).sum ≤ (is.map (supply w)).sum + 1 := by
  have hcount : (is.map (due (some e) w)).sum
      = (is.map (supply w)).sum + (tokens w.1 is).count e.token := by
    clear hnd
    induction is with
    | nil => rfl
    | cons i is ih =>
      rw [List.map_cons, List.sum_cons, List.map_cons, List.sum_cons, ih, due_some, tokens_cons,
        List.count_append]
      cases (w.1.station i).token with
      | none =>
        rw [if_neg (fun h => nomatch h), Option.toList_none, List.count_nil]
        omega
      | some token =>
        rw [Option.toList_some, List.count_singleton]
        simp only [Option.some.injEq, beq_iff_eq]
        omega
  have hone := List.nodup_iff_count_le_one.mp hnd e.token
  omega

/-- **A dispatch ends, after one turn more than there are values and pending connections.**  No two
stations of the tree are registered under one token, and no function makes anything arrive at them.
Then the root is called with the event, and without input at most once more than there are values
in the queues of the tree and of its producers, and connections in the backlogs of its listeners.
It is called as long as it gives values, and no longer. More turns than that may be allowed, and
make no difference. -/
theorem exists_redrives
    (apply : {p q : Payload} → F p q → p.Val → StateM (World kind topic σ) q.Val) (e : Event)
    (t : Tree (Leaf kind topic) F p q) (fleet : Fleet kind topic σ) (l : Loop)
    (htokens : (tokens fleet (stations t)).Nodup)
    (hquiet : Quiet (· ∈ stations t) apply) :
    let react := Turn.ofTree (q := q) (behaviour apply) Prod.mk id
    ∃ (out : Reaction q.Val) (calls : List (Turn.Call p.Val q.Val)) (y : _ × Loop),
      calls.length ≤ t.held.sum + ((stations t).map (supply (fleet, l))).sum + 1 ∧
      (∀ call ∈ calls, call.1 = .idle) ∧
      ∀ n, calls.length ≤ n →
        (Turn.dispatch react n e).run ((t, fleet), l) = (true, y) ∧
        (Turn.dispatch (Turn.logged react) n e).run (((t, fleet), []), l)
          = (true, (y.1, (.event e, out) :: calls), y.2) ∧
        Turn.Driven n (.event e) ((.event e, out) :: calls) true := by
  intro react
  let P : (Tree (Leaf kind topic) F p q × Fleet kind topic σ) × Loop → Prop :=
    fun x => stations x.1.1 = stations t
  have hnote : ∀ r (l : Loop) (n : Notice), P (r, l) → P (r, l.note n) ∧
      reach (supply (r.2, l.note n)) r.1 = reach (supply (r.2, l)) r.1 := fun r l n h =>
    ⟨h, congrArg (reach · r.1) (supply_note r.2 l n)⟩
  have hidle : ∀ x out y, (react .idle).run x = (out, y) → P x →
      P y ∧ out.values.length + reach (supply (y.1.2, y.2)) y.1.1
        ≤ reach (supply (x.1.2, x.2)) x.1.1 := by
    intro x out y hrun hx
    obtain ⟨hy, hle⟩ := reach_le_of_run hrun hquiet (fun i hi => hx ▸ hi) rfl
    have hnone : due none (x.1.2, x.2) = supply (x.1.2, x.2) := funext (due_none _)
    exact ⟨hy.trans hx, hnone ▸ hle⟩
  have hevent : ∀ out y, (react (.event e)).run ((t, fleet), l) = (out, y) →
      P y ∧ out.values.length + reach (supply (y.1.2, y.2)) y.1.1
        ≤ reach (due (some e) (fleet, l)) t := fun out y hrun =>
    reach_le_of_run hrun hquiet (fun i hi => hi) rfl
  obtain ⟨out, calls, y, hlen, hinput, hcalls⟩ := Turn.exists_dispatched _ hnote hidle hevent
  have hreach := reach_le (due (some e) (fleet, l)) t
  have hdue := sum_due_le (w := (fleet, l)) htokens e
  refine ⟨out, calls, y, by omega, hinput, fun n hn => ?_⟩
  obtain ⟨hplain, hlogged⟩ := hcalls n hn
  -- what a dispatch puts on record is what its event calls for
  obtain ⟨made, hmade, hdriven⟩ := Turn.driven_dispatch react n e (t, fleet) [] l
  rw [hlogged] at hmade hdriven
  have hsame : (.event e, out) :: calls = made := hmade
  exact ⟨hplain, hlogged, hsame ▸ hdriven⟩

end Turns

/-- A generator with two values, a stream and a broadcast. -/
def duo : Fleet (Bool.rec .int .unit) (fun _ : Unit => .int) Unit where
  station
    | false => .producer (.generator
        ⟨([1, 2] : List Int64), { Evented.new .hollow .readable with token := some 3 }⟩)
    | true => .stream { Evented.new ⟨.unix, none⟩ .readable with token := some 4 }
  cast _ := ⟨.new .unbounded, ⟨[]⟩⟩
  rest := ()

/-- The values of the generator, raised by ten and published, beside the events of the stream. -/
def duoTree : Tree (Leaf (Bool.rec .int .unit) (fun _ : Unit => .int)) (fun p q => p.Val → q.Val)
    .unit (.choice (.outcome .unit) .unit) :=
  .both none .tagged [] (.chain (.map (.leaf (.station false)) (· + (10 : Int64)))
    (.leaf (.publish ()))) (.leaf (.station true))

theorem exists_redrives_duo : (tokens duo (stations duoTree)).Nodup ∧
    ((stations duoTree).map (supply (duo, ⟨Host.initial .silent, System.absent⟩))).sum = 2 ∧
    ((Turn.dispatch (Turn.ofTree (behaviour fun f v => pure (f v)) Prod.mk id) 3
      ⟨4, .nothing⟩).run ((duoTree, duo), ⟨Host.initial .silent, System.absent⟩)).1 = true := by
  have hnd : (tokens duo (stations duoTree)).Nodup := by decide
  obtain ⟨out, calls, y, hlen, -, hcalls⟩ := exists_redrives (fun f v => pure (f v)) ⟨4, .nothing⟩
    duoTree duo ⟨Host.initial .silent, System.absent⟩ hnd fun _ _ w => .refl w
  exact ⟨hnd, rfl, congrArg Prod.fst (hcalls 3 hlen).1⟩

/-- Two turns would not do: an event of the stream gives a value, and then the generator has two. -/
example : ((Turn.dispatch (Turn.ofTree (behaviour fun f v => pure (f v)) Prod.mk id) 2
    ⟨4, .nothing⟩).run ((duoTree, duo), ⟨Host.initial .silent, System.absent⟩)).1 = false := by
  decide

end Fleet

end EventLoop

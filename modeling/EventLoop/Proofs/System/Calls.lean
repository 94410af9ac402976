import EventLoop.Proofs.System.Batch
import EventLoop.Proofs.System.Dispatch

/-!
# What a root is called with

A root that keeps a record of its calls behaves as it would without one, so what
the loop calls a root with can be read off such a record.

## Main definitions

* `Turn.logged` — a root that keeps a record of its calls.
* `Turn.Driven` — the calls that an event calls for: one with the event, and one without input
  for each value that comes out; and whether they come to an end.
* `Turn.Mirrors` — one step behaves as another, if states are seen through a function.

## Main results

* `Turn.driven_dispatch` — **a dispatch calls the root with its event, and goes on until no value
  comes out.**
* `Turn.Simulates.start`, `Turn.Simulates.poll` — a whole run is seen through the same function.
* `Turn.logged_shift` — what was on record before plays no part.
-/

namespace EventLoop

namespace Turn

variable {ρ ρ₁ ρ₂ α β β₁ β₂ γ δ : Type} {react : Reaction α → Turn ρ (Reaction β)}

/-! ### The record -/

/-- A call of a root: what went in, and what came out. -/
abbrev Call (α β : Type) := Reaction α × Reaction β

/-- A root that keeps a record of its calls. -/
def logged (react : Reaction α → Turn ρ (Reaction β)) (input : Reaction α) :
    Turn (ρ × List (Call α β)) (Reaction β) := fun x =>
  let y := (react input).run (x.1.1, x.2)
  (y.1, ((y.2.1, x.1.2 ++ [(input, y.1)]), y.2.2))

/-- The calls that an input calls for, if at most `n` more may follow: as long as a value comes
out, there is another one without input. The flag says whether it comes to that: the last call
gives no value. -/
inductive Driven : Nat → Reaction α → List (Call α β) → Bool → Prop
  /-- No value comes out. -/
  | last {n : Nat} {input : Reaction α} {out : Reaction β} (hout : out.isValue = false) :
      Driven n input [(input, out)] true
  /-- A value comes out, but no more calls may follow. -/
  | spent {input : Reaction α} {v : β} : Driven 0 input [(input, .value v)] false
  /-- A value comes out, and calls without input follow. -/
  | again {n : Nat} {input : Reaction α} {v : β} {calls : List (Call α β)} {done : Bool}
      (hmore : Driven n .idle calls done) :
      Driven (n + 1) input ((input, .value v) :: calls) done

/-- What a call adds to the record. -/
theorem run_logged {input : Reaction α} {r r' : ρ} {l l' : Loop} {out : Reaction β}
    (h : (react input).run (r, l) = (out, r', l')) (before : List (Call α β)) :
    (logged react input).run ((r, before), l) = (out, (r', before ++ [(input, out)]), l') := by
  show (((react input).run (r, l)).1, _, _) = _
  rw [h]

/-- The turns that follow a value. -/
theorem driven_redrive (react : Reaction α → Turn ρ (Reaction β)) (n : Nat) :
    ∀ (r : ρ) (before : List (Call α β)) (l : Loop), ∃ calls,
    ((redrive (logged react) n).run ((r, before), l)).2.1.2 = before ++ calls ∧
      ∀ input v, Driven n input ((input, .value v) :: calls)
        ((redrive (logged react) n).run ((r, before), l)).1 := by
  -- on the allowance: a value leads to another turn, anything else ends the dispatch
  induction n with
  | zero =>
    intro r before l
    refine ⟨[], ?_, ?_⟩
    · rw [List.append_nil]
      rfl
    · intro input v
      -- the allowance is spent, however many values are still held
      exact .spent
  | succ n ih =>
    intro r before l
    rcases hturn : (react .idle).run (r, l.note .valueDropped) with ⟨out, r', l'⟩
    rw [run_redrive_succ (x := ((r, before), l)) (run_logged hturn before)]
    cases out with
    | value w =>
      obtain ⟨calls, hcalls, hdriven⟩ := ih r' (before ++ [(.idle, .value w)]) l'
      refine ⟨(.idle, .value w) :: calls, ?_, ?_⟩
      · rw [List.append_assoc] at hcalls
        exact hcalls
      · intro input v
        exact .again (hdriven .idle w)
    | idle =>
      refine ⟨[(.idle, .idle)], rfl, ?_⟩
      intro input v
      exact .again (.last rfl)
    | event e =>
      refine ⟨[(.idle, .event e)], rfl, ?_⟩
      intro input v
      exact .again (.last rfl)

/-- **A dispatch calls the root with its event, and goes on until no value comes out.** -/
theorem driven_dispatch (react : Reaction α → Turn ρ (Reaction β)) (n : Nat) (e : Event) (r : ρ)
    (before : List (Call α β)) (l : Loop) : ∃ calls,
    ((dispatch (logged react) n e).run ((r, before), l)).2.1.2 = before ++ calls ∧
      Driven n (.event e) calls ((dispatch (logged react) n e).run ((r, before), l)).1 := by
  rcases hturn : (react (.event e)).run (r, l) with ⟨out, r', l'⟩
  rw [run_dispatch_of_run (run_logged hturn before)]
  cases out with
  | value v =>
    obtain ⟨calls, hcalls, hdriven⟩ :=
      driven_redrive react n r' (before ++ [(.event e, .value v)]) l'
    refine ⟨(.event e, .value v) :: calls, ?_, hdriven (.event e) v⟩
    rw [List.append_assoc] at hcalls
    exact hcalls
  | idle => exact ⟨[(.event e, .idle)], rfl, .last rfl⟩
  | event e' => exact ⟨[(.event e, .event e')], rfl, .last rfl⟩

/-! ### Runs of roots that behave as others -/

/-- The second step behaves as the first, if states are seen through `φ`. -/
def Mirrors (φ : ρ₁ → ρ₂) (t₁ : Turn ρ₁ γ) (t₂ : Turn ρ₂ γ) : Prop :=
  ∀ r l, t₂.run (φ r, l) = ((t₁.run (r, l)).1, φ (t₁.run (r, l)).2.1, (t₁.run (r, l)).2.2)

namespace Mirrors

variable {φ : ρ₁ → ρ₂}

theorem pure (c : γ) : Mirrors φ (Pure.pure c : Turn ρ₁ γ) (Pure.pure c : Turn ρ₂ γ) := by
  intro r l
  rfl

theorem onLoop (f : Loop → γ × Loop) :
    Mirrors φ (onLoop f : Turn ρ₁ γ) (onLoop f : Turn ρ₂ γ) := by
  intro r l
  rfl

theorem modifyLoop (f : Loop → Loop) :
    Mirrors φ (modifyLoop f : Turn ρ₁ Unit) (modifyLoop f : Turn ρ₂ Unit) := by
  intro r l
  rfl

theorem loop : Mirrors φ (loop : Turn ρ₁ Loop) (loop : Turn ρ₂ Loop) := by
  intro r l
  rfl

theorem bind {t₁ : Turn ρ₁ γ} {t₂ : Turn ρ₂ γ} {f₁ : γ → Turn ρ₁ δ} {f₂ : γ → Turn ρ₂ δ}
    (ht : Mirrors φ t₁ t₂) (hf : ∀ c, Mirrors φ (f₁ c) (f₂ c)) :
    Mirrors φ (t₁ >>= f₁) (t₂ >>= f₂) := by
  intro r l
  have hrun := ht r l
  rcases h₁ : t₁.run (r, l) with ⟨c, r', l'⟩
  rw [h₁] at hrun
  rw [Tree.run_bind_of_run h₁, Tree.run_bind_of_run hrun]
  exact hf c r' l'

end Mirrors

namespace Simulates

variable {react₁ : Reaction α → Turn ρ₁ (Reaction β₁)}
  {react₂ : Reaction α → Turn ρ₂ (Reaction β₂)} {φ : ρ₁ → ρ₂} {ψ : β₁ → β₂}

theorem handle (h : Simulates react₁ react₂ φ ψ) (n : Nat) (e : Event) :
    Mirrors φ (handle react₁ n e) (handle react₂ n e) := by
  intro r l
  rw [handle_eq, handle_eq]
  split
  · rfl
  · split
    · rw [h.dispatch]
    · rfl

theorem handleAll (h : Simulates react₁ react₂ φ ψ) (n : Nat) (events : List Event) :
    Mirrors φ (handleAll react₁ n events) (handleAll react₂ n events) := by
  induction events with
  | nil => exact .pure _
  | cons e rest ih =>
    refine (h.handle n e).bind fun got? => ?_
    cases got? with
    | none => exact .pure none
    | some got => exact ih.bind fun _ => .pure _

theorem poll (h : Simulates react₁ react₂ φ ψ) (n : Nat) (timeout : Int) :
    Mirrors φ (poll react₁ n timeout) (poll react₂ n timeout) := by
  refine Mirrors.bind (.onLoop _) fun answer => ?_
  cases answer with
  | error e => exact .pure _
  | ok events => exact (h.handleAll n events).bind fun _ => .pure _

theorem keepPolling (h : Simulates react₁ react₂ φ ψ) (n polls : Nat) :
    Mirrors φ (keepPolling react₁ n polls) (keepPolling react₂ n polls) := by
  -- the loop alone decides whether the next batch is polled, and both runs see the same loop
  induction polls with
  | zero => exact .pure none
  | succ polls ih =>
    refine Mirrors.loop.bind fun l => ?_
    split
    · exact (Mirrors.modifyLoop _).bind fun _ => .pure _
    · refine Mirrors.loop.bind fun l' => (h.poll n _).bind fun answer => ?_
      rcases answer with _ | ⟨f | count⟩
      · exact .pure none
      · exact .pure _
      · exact ih

/-- A whole run is seen through the same function. -/
theorem start (h : Simulates react₁ react₂ φ ψ) (n polls : Nat) :
    Mirrors φ (start react₁ n polls) (start react₂ n polls) :=
  (Mirrors.modifyLoop _).bind fun _ => (Mirrors.modifyLoop _).bind fun _ => h.keepPolling n polls

end Simulates

/-- To keep a record of the calls of a root changes nothing else. -/
theorem simulates_logged (react : Reaction α → Turn ρ (Reaction β)) :
    Simulates (logged react) react Prod.fst id := by
  intro input _ r l
  -- the answers of the root are passed on as they are
  have hid : ∀ x : Reaction β, x.map id = x := fun x => by cases x <;> rfl
  rw [hid]
  rfl

/-- What was on record before plays no part. -/
theorem logged_shift (react : Reaction α → Turn ρ (Reaction β)) (before : List (Call α β)) :
    Simulates (logged react) (logged react) (fun r => (r.1, before ++ r.2)) id := by
  intro input _ r l
  have hid : ∀ x : Reaction β, x.map id = x := fun x => by cases x <;> rfl
  obtain ⟨r, calls⟩ := r
  rcases hturn : (react input).run (r, l) with ⟨out, r', l'⟩
  rw [hid, run_logged hturn, run_logged hturn, List.append_assoc]

end Turn
end EventLoop

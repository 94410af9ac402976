import EventLoop.Proofs.Registration.Tenancy
import EventLoop.Proofs.Tree.Turned
import EventLoop.System.Run

/-!
# Whose events a batch delivers

The events of a batch are handled one after the other, and the root may change the
registrations in between.  An event is passed on if its token is registered at
its turn.  As long as the root only gives tokens back, this is the registration
the event was reported for; a root that also registers can have the event of a
token it freed delivered to whoever took the token next.

## Main definitions

* `Loop.Within l₀ l` — every registration of `l` was there in `l₀`.
* `Turn.NeverRegisters` — a root that only gives tokens back.
* `Turn.takeOver` — a root that frees a token and takes it for something else.

## Main results

* `Turn.handle_eq` — an event reaches the root if and only if its token is
  registered at its turn.
* `Turn.lodged_at_turn` — **a root that never registers gets no event for another
  registration than the one it was reported for.**
* `Turn.takeOver_delivers` — a root that registers can: the freed token is issued next, and
  its event goes to the new holder.
-/

namespace EventLoop

/-- Every registration of the later loop was there in the earlier one. -/
def Loop.Within (l₀ l : Loop) : Prop :=
  ∀ token d, l.lodged token = some d → l₀.lodged token = some d

namespace Loop

variable {l₀ l₁ l₂ : Loop}

theorem Within.refl (l : Loop) : l.Within l := fun _ _ h => h

theorem Within.trans (h : l₀.Within l₁) (h' : l₁.Within l₂) : l₀.Within l₂ :=
  fun token d hd => h token d (h' token d hd)

theorem Within.of_table_eq (h : l₁.system.table = l₀.system.table) : l₀.Within l₁ := by
  intro token d hd
  unfold lodged at hd ⊢
  rwa [h] at hd

/-- Giving a token back takes nothing. -/
theorem within_deregister (l : Loop) (token : Token) : l.Within (l.deregister token).2 := by
  intro j d hd
  rw [lodged_change (get?_deregister l token)] at hd
  by_cases hj : j = token
  · rw [if_pos hj] at hd
    cases hd
  · rwa [if_neg hj] at hd

theorem table_heed (l : Loop) : l.heed.system.table = l.system.table := by
  unfold heed
  split <;> rfl

theorem table_drainControl (l : Loop) : l.drainControl.system.table = l.system.table := by
  unfold drainControl
  generalize l.system.control.queue = queue
  induction queue generalizing l with
  | nil => rfl
  | cons c rest ih => exact (ih l.heed).trans (table_heed l)

end Loop

namespace Turn

variable {ρ α β : Type} {react : Reaction α → Turn ρ (Reaction β)} {n : Nat}

/-- An event reaches the root if its token is registered at its turn, and only then. -/
theorem handle_eq (react : Reaction α → Turn ρ (Reaction β)) (n : Nat) (e : Event) (r : ρ)
    (l : Loop) : (handle react n e).run (r, l) =
      if e.token = systemToken then (some false, r, l.drainControl)
      else if l.system.isRegistered e.token then
        (if ((dispatch react n e).run (r, l.note (.dispatched e))).1 then some true else none,
          ((dispatch react n e).run (r, l.note (.dispatched e))).2)
      else (some false, r, l.note (.stale e)) := by
  unfold handle
  by_cases hsys : e.token = systemToken
  · rw [if_pos hsys, if_pos hsys]
    rfl
  · rw [if_neg hsys, if_neg hsys, Tree.run_bind_of_run (show (loop : Turn ρ Loop).run (r, l)
      = (l, r, l) from rfl)]
    cases hreg : l.system.isRegistered e.token with
    | true => rfl
    | false => rfl

/-- A root that gives tokens back at most. -/
def NeverRegisters (react : Reaction α → Turn ρ (Reaction β)) : Prop :=
  ∀ (input : Reaction α) (r : ρ) (l : Loop), l.Within ((react input).run (r, l)).2.2

example (token : Token) : NeverRegisters (fun _ => do
    modifyLoop fun l => (l.deregister token).2
    return .idle : Reaction α → Turn ρ (Reaction β)) :=
  fun _ _ l => l.within_deregister token

namespace NeverRegisters

theorem within_redrive (hr : NeverRegisters react) (n : Nat) :
    ∀ (r : ρ) (l : Loop), l.Within ((redrive react n).run (r, l)).2.2 := by
  -- on the allowance: the registrations after a turn are among those before it
  induction n with
  | zero =>
    intro r l
    exact .refl l
  | succ n ih =>
    intro r l
    have hturn := hr .idle r (l.note .valueDropped)
    have hnote : (note .valueDropped : Turn ρ Unit).run (r, l) = ((), r, l.note .valueDropped) := rfl
    rcases hrun : (react .idle).run (r, l.note .valueDropped) with ⟨out, r', l'⟩
    rw [hrun] at hturn
    rw [redrive, Tree.run_bind_of_run hnote, Tree.run_bind_of_run hrun]
    cases out with
    | value v => exact hturn.trans (ih r' l')
    | idle => exact hturn
    | event e => exact hturn

theorem within_dispatch (hr : NeverRegisters react) (n : Nat) (e : Event) (r : ρ) (l : Loop) :
    l.Within ((dispatch react n e).run (r, l)).2.2 := by
  have hturn := hr (.event e) r l
  rcases hrun : (react (.event e)).run (r, l) with ⟨out, r', l'⟩
  rw [hrun] at hturn
  rw [dispatch, Tree.run_bind_of_run hrun]
  cases out with
  | value v => exact hturn.trans (hr.within_redrive n r' l')
  | idle => exact hturn
  | event e' => exact hturn

theorem within_handle (hr : NeverRegisters react) (n : Nat) (e : Event) (r : ρ) (l : Loop) :
    l.Within ((handle react n e).run (r, l)).2.2 := by
  rw [handle_eq]
  split
  · exact .of_table_eq l.table_drainControl
  · split
    · exact hr.within_dispatch n e r (l.note (.dispatched e))
    · exact .refl l

theorem within_handleAll (hr : NeverRegisters react) (n : Nat) (events : List Event) :
    ∀ s : ρ × Loop, s.2.Within ((handleAll react n events).run s).2.2 := by
  induction events with
  | nil =>
    intro s
    exact .refl s.2
  | cons e rest ih =>
    intro s
    have hhandle := hr.within_handle n e s.1 s.2
    rcases hrun : (handle react n e).run s with ⟨got?, s'⟩
    rw [hrun] at hhandle
    rw [handleAll, Tree.run_bind_of_run hrun]
    cases got? with
    | none => exact hhandle
    | some got => exact hhandle.trans (ih s')

end NeverRegisters

/-- **A root that never registers gets no event for another registration than the one it was
reported for**: at its turn in the batch, its token has the descriptor it had in the
beginning. -/
theorem lodged_at_turn (hr : NeverRegisters react) (before : List Event) (e : Event) (s : ρ × Loop)
    (hgot : ((handle react n e).run ((handleAll react n before).run s).2).1 ≠ some false) :
    ∃ d, s.2.lodged e.token = some d ∧
      ((handleAll react n before).run s).2.2.lodged e.token = some d := by
  rcases hs : ((handleAll react n before).run s).2 with ⟨r, l⟩
  have hwithin := hr.within_handleAll n before s
  rw [hs] at hgot hwithin
  rw [handle_eq] at hgot
  split at hgot
  · exact absurd rfl hgot
  · split at hgot
    · next hreg =>
      obtain ⟨d, hd⟩ := Loop.isRegistered_iff.mp hreg
      exact ⟨d, hwithin _ d hd, hd⟩
    · exact absurd rfl hgot

/-! ### Taking a token over -/

/-- A root that, whatever happens, frees a token and registers a descriptor. -/
def takeOver (victim : Token) (fd : Option Nat) (i : Interest) :
    Reaction α → Turn ρ (Reaction β) := fun _ => do
  modifyLoop fun l => ((l.deregister victim).2.register fd i).2
  return .idle

theorem lodged_takeOver {l l' : Loop} {victim token : Token} {fd d : Option Nat} {i : Interest}
    (hd : l.lodged victim = some d) (hoff : l.system.table.offset ≤ victim)
    (hreg : (l.deregister victim).2.register fd i = (.ok token, l')) :
    token = victim ∧ l'.lodged victim = some fd := by
  obtain ⟨r, hr, -⟩ := Loop.lodged_eq_some_iff.mp hd
  obtain ⟨hvac, hreg⟩ := Loop.register_ok hreg
  -- the key freed last is the next to be issued
  have htoken : token = victim := by
    rw [hvac, Loop.table_deregister, Slab.vacantKey_remove hr hoff]
  subst htoken
  refine ⟨rfl, Loop.lodged_eq_some_iff.mpr ⟨⟨fd, i⟩, ?_, rfl⟩⟩
  rw [Loop.get?_registerAt_ok hreg, if_pos rfl]

/-- The turn of such a root on the first event of a batch. -/
theorem handle_takeOver (victim : Token) (fd : Option Nat) (i : Interest) {e : Event} {l : Loop}
    (he : e.token ≠ systemToken) (hlive : l.system.isRegistered e.token = true) (n : Nat) (r : ρ) :
    ((handle (takeOver victim fd i : Reaction α → Turn ρ (Reaction β)) n e).run (r, l)).2
      = (r, (((l.note (.dispatched e)).deregister victim).2.register fd i).2) := by
  rw [handle_eq, if_neg he, if_pos hlive]
  rfl

/-- **A root that registers can get an event for another registration than the one it was
reported for**: the event of a freed token goes to whoever the token was issued to next. -/
theorem takeOver_delivers {l l' : Loop} {e e' : Event} {token : Token} {fd d : Option Nat}
    {i : Interest} (he : e.token ≠ systemToken) (hlive : l.system.isRegistered e.token = true)
    (he' : e'.token ≠ systemToken) (hd : l.lodged e'.token = some d)
    (hoff : l.system.table.offset ≤ e'.token)
    (hreg : ((l.note (.dispatched e)).deregister e'.token).2.register fd i = (.ok token, l'))
    (react : Reaction α → Turn ρ (Reaction β)) (hreact : react = takeOver e'.token fd i)
    (n : Nat) (r : ρ) :
    ((handle react n e).run (r, l)).2.2.lodged e'.token = some fd ∧
      ((handle react n e').run ((handle react n e).run (r, l)).2).1 = some true := by
  have hlodged : l'.lodged e'.token = some fd :=
    (lodged_takeOver (l := l.note (.dispatched e)) hd hoff hreg).2
  rw [hreact, handle_takeOver _ _ _ he hlive, hreg]
  refine ⟨hlodged, ?_⟩
  rw [handle_eq, if_neg he', if_pos (Loop.isRegistered_iff.mpr ⟨fd, hlodged⟩)]
  rfl

end Turn
end EventLoop

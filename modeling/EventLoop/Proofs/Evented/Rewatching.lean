import EventLoop.Proofs.Evented.Rack
import EventLoop.Proofs.Registration.Upkeep

/-!
# What a registration changes on the host

A registration, and whatever is done with a resource and its registration, asks the
multiplexer of the loop to watch something, or to watch it differently.  Of the host
nothing else changes: no descriptor is opened or closed, and no byte moves.

## Main definitions

* `Host.Rewatches h h'` — at most what multiplexers watch has changed.

## Main results

* `Loop.rewatches_registerAt`, `Loop.rewatches_reregister`, `Loop.rewatches_deregister`.
* `Evented.Use.rewatches_run` — **a resource that is put to use rewatches at most.**
-/

namespace EventLoop

namespace Host

variable {h h' h'' : Host} {fd : Nat} {o : Object}

/-- At most what multiplexers watch has changed, and what was said. -/
structure Rewatches (h h' : Host) : Prop where
  /-- The ends of streams are the same. -/
  ends_eq : h'.ends = h.ends
  /-- A descriptor refers to the same, or to a multiplexer as before. -/
  object? : ∀ fd, h'.object? fd = h.object? fd ∨ ∃ watches watches',
    h.object? fd = some (.multiplexer watches) ∧ h'.object? fd = some (.multiplexer watches')

namespace Rewatches

theorem refl (h : Host) : Rewatches h h := ⟨rfl, fun _ => .inl rfl⟩

theorem note (h : Host) (n : Notice) : Rewatches h (h.note n) := ⟨rfl, fun _ => .inl rfl⟩

theorem trans (h₁ : Rewatches h h') (h₂ : Rewatches h' h'') : Rewatches h h'' where
  ends_eq := h₂.ends_eq.trans h₁.ends_eq
  object? fd := by
    -- a multiplexer stays one, with its watches changed twice
    rcases h₁.object? fd with heq | ⟨watches, watches', ho, ho'⟩
    · rw [← heq]
      exact h₂.object? fd
    · refine .inr ⟨watches, ?_⟩
      rcases h₂.object? fd with heq | ⟨-, watches'', -, ho''⟩
      · exact ⟨watches', ho, heq.trans ho'⟩
      · exact ⟨watches'', ho, ho''⟩

theorem control {p f : Option Nat} {c : Control} (hc : h.control p f c = .ok h') :
    Rewatches h h' := by
  obtain ⟨q, -, watches, watches', -, -, -, ho, -, -, rfl⟩ := control_ok hc
  refine ⟨rfl, fun fd => ?_⟩
  rw [object?_setObject ho]
  by_cases hq : fd = q
  · rw [if_pos hq, hq]
    exact .inr ⟨watches, watches', ho, rfl⟩
  · rw [if_neg hq]
    exact .inl rfl

/-- What is no multiplexer stays. -/
theorem object?_eq (hr : Rewatches h h') (ho : h.object? fd = some o)
    (hne : ∀ watches, o ≠ .multiplexer watches) : h'.object? fd = some o := by
  rcases hr.object? fd with heq | ⟨watches, -, hmux, -⟩
  · rw [heq, ho]
  · rw [ho] at hmux
    exact absurd (Option.some.inj hmux) (hne watches)

end Rewatches

end Host

/-! ### Registrations -/

namespace Loop

variable {l l' : Loop}

theorem rewatches_registerAt (l : Loop) (fd : Option Nat) (token : Token) (i : Interest) :
    l.host.Rewatches (l.registerAt fd token i).2.host := by
  rcases hr : l.registerAt fd token i with ⟨r, l'⟩
  cases r with
  | error e =>
    rw [host_registerAt_error hr]
    exact .refl _
  | ok u =>
    -- the one host call of a registration is the adding of the watch
    obtain ⟨-, table, host, -, hadd, rfl⟩ := registerAt_ok hr
    exact .control (Poller.add_ok hadd)

theorem rewatches_reregister (l : Loop) (token : Token) (i : Interest) :
    l.host.Rewatches (l.reregister token i).2.host := by
  rcases hr : l.reregister token i with ⟨r, l'⟩
  cases r with
  | error e =>
    rw [reregister_error hr]
    exact .refl _
  | ok u =>
    obtain ⟨r, host, -, hmod, rfl⟩ := reregister_ok hr
    exact .control (Poller.modify_ok hmod)

theorem rewatches_deregister (l : Loop) (token : Token) :
    l.host.Rewatches (l.deregister token).2.host := by
  unfold deregister
  cases hr : l.system.table.get? token with
  | none =>
    rw [Slab.remove_none hr]
    exact .refl _
  | some r =>
    rw [Slab.remove_some hr]
    dsimp only
    rw [poller_withTable, host_withTable]
    cases hrem : l.system.poller.remove r.descriptor l.host with
    | error e =>
      dsimp only
      -- a watch that was gone already counts as taken back
      split
      · exact .refl _
      · exact .note _ _
    | ok host => exact (Host.Rewatches.control (Poller.remove_ok hrem)).trans (.note _ _)

end Loop

/-! ### Uses -/

namespace Evented

variable {ι : Type}

theorem rewatches_afterWrite (e : Evented ι) (r : Except Failure Nat) (l : Loop) :
    l.host.Rewatches (e.afterWrite r l).2.2.host := by
  -- the loop is asked for writable interest only where the write would block under a token
  rcases e.afterWrite_cases r l with ⟨hl, -, -⟩ | ⟨token, -, -, ⟨hr, -, -⟩ | ⟨g, -, hl, -⟩⟩
  · rw [hl]
    exact .refl _
  · have hrewatch := l.rewatches_reregister token (e.interest.union .writable)
    rw [hr] at hrewatch
    exact hrewatch
  · rw [hl]
    exact .refl _

theorem rewatches_accept (e : Evented ι) (event : Event) (l : Loop) :
    l.host.Rewatches (e.accept event l).2.2.host := by
  rcases e.accept_cases event l with ⟨hl, -, -⟩ | ⟨-, -, -, hr | ⟨f, -, hl⟩⟩
  · rw [hl]
    exact .refl _
  · have hrewatch := l.rewatches_reregister event.token e.interest
    rw [hr] at hrewatch
    exact hrewatch
  · rw [hl]
    exact .note _ _

variable [Pollable ι]

theorem rewatches_registerAt (e : Evented ι) (token : Token) (l : Loop) :
    l.host.Rewatches (e.registerAt token l).2.2.host := by
  unfold registerAt
  cases e.token with
  | some t => exact .refl _
  | none =>
    have hrewatch := l.rewatches_registerAt (Pollable.descriptor e.inner) token e.interest
    dsimp only
    rcases hr : l.registerAt (Pollable.descriptor e.inner) token e.interest with ⟨r, l'⟩
    rw [hr] at hrewatch
    cases r with
    | ok u => exact hrewatch
    | error f => exact hrewatch

omit [Pollable ι] in
theorem rewatches_reregister (e : Evented ι) (i : Interest) (l : Loop) :
    l.host.Rewatches (e.reregister i l).2.2.host := by
  rcases e.reregister_cases i l with ⟨-, heq⟩ | ⟨token, -, ⟨l', hr, heq⟩ | ⟨f, -, heq⟩⟩
  · rw [heq]
    exact .refl _
  · have hrewatch := l.rewatches_reregister token i
    rw [heq]
    rw [hr] at hrewatch
    exact hrewatch
  · rw [heq]
    exact .refl _

omit [Pollable ι] in
theorem rewatches_deregister (e : Evented ι) (l : Loop) :
    l.host.Rewatches (e.deregister l).2.2.host := by
  unfold deregister
  cases e.token with
  | none => exact .refl _
  | some token => exact l.rewatches_deregister token

/-- **A resource that is put to use rewatches at most.** -/
theorem Use.rewatches_run (u : Use ι) (e : Evented ι) (l : Loop) :
    l.host.Rewatches (u.run e l).2.host := by
  cases u with
  | register =>
    show l.host.Rewatches (e.register l).2.2.host
    rw [register_eq]
    exact e.rewatches_registerAt _ l
  | registerAt token => exact e.rewatches_registerAt token l
  | reregister i => exact e.rewatches_reregister i l
  | deregister => exact e.rewatches_deregister l
  | accept event => exact e.rewatches_accept event l
  -- reading and writing leave the watches alone; the rearming after a blocked write does not
  | read v r => exact .refl _
  | write v r => exact rewatches_afterWrite _ r l

theorem inner_registerAt (e : Evented ι) (token : Token) (l : Loop) :
    (e.registerAt token l).2.1.inner = e.inner := by
  rcases hr : e.registerAt token l with ⟨r, e', l'⟩
  cases r with
  | ok u =>
    obtain ⟨-, rfl, -⟩ := registerAt_ok hr
    rfl
  | error f =>
    obtain ⟨rfl, -⟩ := registerAt_error hr
    rfl

/-- A resource that is put to use keeps its descriptor. -/
theorem Use.descriptor_run {u : Use ι} {e : Evented ι} (hu : u.Keeps e) (l : Loop) :
    Pollable.descriptor (u.run e l).1.inner = Pollable.descriptor e.inner := by
  cases u with
  | register =>
    show Pollable.descriptor (e.register l).2.1.inner = _
    rw [register_eq, inner_registerAt]
  | registerAt token =>
    show Pollable.descriptor (e.registerAt token l).2.1.inner = _
    rw [inner_registerAt]
  | reregister i =>
    rcases e.reregister_cases i l with ⟨-, heq⟩ | ⟨token, -, ⟨l', -, heq⟩ | ⟨f, -, heq⟩⟩ <;>
      exact congrArg (fun x => Pollable.descriptor x.2.1.inner) heq
  | deregister =>
    show Pollable.descriptor (e.deregister l).2.1.inner = _
    unfold Evented.deregister
    cases e.token <;> rfl
  | accept event =>
    rcases e.accept_cases event l with ⟨-, hsame, -⟩ | ⟨-, -, hsame, -⟩ <;>
      exact congrArg Pollable.descriptor hsame.inner_eq
  | read v r =>
    have hsame := sameSetting_afterRead { e with inner := v } r
    exact (congrArg Pollable.descriptor hsame.inner_eq).trans hu
  | write v r =>
    rcases afterWrite_cases { e with inner := v } r l with ⟨-, hsame, -⟩ |
      ⟨token, -, -, ⟨-, hsame, -⟩ | ⟨g, -, -, hsame, -⟩⟩ <;>
      exact (congrArg Pollable.descriptor hsame.inner_eq).trans hu

end Evented
end EventLoop

import EventLoop.Proofs.System.Chronicle

/-!
# Who heeds a command to stop

A command to stop waits in the control channel until a batch reports its bell.  The
batch may be one of the running loop, or a single one that was asked for while the
loop was not running.  In the first case the loop stops.  In the second it cannot:
whatever was heard before a loop starts is forgotten, and the loop that starts next
waits all the same.

## Main definitions

* `commands log` — how many commands were taken out of the control channel.
* `Worker.pending` — how many commands are queued.
* `Worker.Lost` — a command was heard, and a loop waits that should have come back instead.

## Main results

* `Worker.pending_run` — a command is queued until it is heard.
* `Chronicle.told` — **after the running loop has heard a command it does not wait again.**
* `Chronicle.begun_waits` — **a call that begins waits before anything else is seen of it.**
* `Worker.stop_spec` — **a command is lost if a single batch hears it, and only then.**
-/

namespace EventLoop

variable {ρ α β : Type} {n : Nat} {log : List (Sighting α β)} {phase : Phase} {heard : Bool}

/-- Where in a list with one more element an element stands: it is the last, or it was there
before. -/
theorem concat_eq_append_cons {γ : Type} {l pre mid : List γ} {x y : γ}
    (h : l ++ [x] = pre ++ y :: mid) :
    (mid = [] ∧ l = pre ∧ x = y) ∨ ∃ m, mid = m ++ [x] ∧ l = pre ++ y :: m := by
  rcases List.eq_nil_or_concat mid with rfl | ⟨m, z, rfl⟩
  · obtain ⟨hl, hx⟩ := List.append_inj' h rfl
    cases hx
    exact .inl ⟨rfl, hl, rfl⟩
  · have hsplit : l ++ [x] = (pre ++ y :: m) ++ [z] := by simpa using h
    obtain ⟨hl, hx⟩ := List.append_inj' hsplit rfl
    cases hx
    exact .inr ⟨m, List.concat_eq_append, hl⟩

/-- An element other than the last was there before. -/
theorem eq_append_of_concat_ne {γ : Type} {l pre mid : List γ} {x y : γ}
    (h : l ++ [x] = pre ++ y :: mid) (hne : x ≠ y) : ∃ m, mid = m ++ [x] ∧ l = pre ++ y :: m :=
  (concat_eq_append_cons h).resolve_left fun hlast => hne hlast.2.2

/-! ### After a command was heard -/

/-- What may have been seen since the running loop heard a command: either it has come back, and
did not wait before, or it is still about to. -/
def Heeded (phase : Phase) (heard : Bool) (since : List (Sighting α β)) : Prop :=
  (∃ before after, since = before ++ .ended (.ok ()) :: after ∧ ∀ c r, .waited c r ∉ before) ∨
    (phase.isRunning = true ∧ heard = true ∧ ∀ c r, .waited c r ∉ since)

/-- A loop that has come back has done so, whatever is seen later. -/
theorem Heeded.concat {since : List (Sighting α β)} (hs : Heeded phase heard since)
    {phase' : Phase} {heard' : Bool} {x : Sighting α β}
    (hx : phase.isRunning = true → heard = true → (∀ c r, .waited c r ∉ since) →
      Heeded phase' heard' (since ++ [x])) : Heeded phase' heard' (since ++ [x]) := by
  rcases hs with ⟨before, after, rfl, hbefore⟩ | ⟨hrun, hheard, hnone⟩
  · exact .inl ⟨before, after ++ [x], by simp, hbefore⟩
  · exact hx hrun hheard hnone

theorem Phase.isRunning_batch (c : Callee) (rest : List Event) (count : Nat) :
    (Phase.batch c rest count).isRunning = decide (c = .start) := by cases c <;> rfl

theorem Phase.isRunning_stuck (c : Callee) : (Phase.stuck c).isRunning = decide (c = .start) := by
  cases c <;> rfl

/-- In the turn of an event a loop that is still about to come back stays the one it is. -/
theorem Heeded.serve {since : List (Sighting α β)} {c : Callee} {rest : List Event} {count : Nat}
    {phase' : Phase} {heard' : Bool} (hs : Heeded (.batch c rest count) heard since)
    (hrunning : phase'.isRunning = decide (c = .start)) (hle : heard = true → heard' = true)
    (e : Event) (registered : Bool) (k : Nat) (calls : List (Turn.Call α β)) :
    Heeded phase' heard' (since ++ [.served c e registered k calls]) := by
  refine hs.concat fun hrun hheard hnone => .inr ⟨?_, hle hheard, ?_⟩
  · cases c with
    | start => exact hrunning
    | poll t => cases hrun
  · intro c' r
    simp [hnone c' r]

/-- What may have been seen since a call began: nothing yet, or a wait first of all. -/
def AtOnce (c : Callee) (phase : Phase) (heard : Bool) (since : List (Sighting α β)) : Prop :=
  (since = [] ∧ phase = .ready c ∧ heard = false) ∨ ∃ r more, since = .waited c r :: more

theorem AtOnce.concat {c : Callee} {since : List (Sighting α β)}
    (hs : AtOnce c phase heard since) {phase' : Phase} {heard' : Bool} {x : Sighting α β}
    (hx : phase = .ready c → heard = false → ∃ r, x = .waited c r) :
    AtOnce c phase' heard' (since ++ [x]) := by
  rcases hs with ⟨rfl, hphase, hheard⟩ | ⟨r, more, rfl⟩
  · obtain ⟨r, rfl⟩ := hx hphase hheard
    exact .inr ⟨r, [], rfl⟩
  · exact .inr ⟨r, more ++ [x], rfl⟩

namespace Chronicle

/-- **After the running loop has heard a command it does not wait again** before it has come
back. -/
theorem told (h : Chronicle n log phase heard) {pre since : List (Sighting α β)} {e : Event}
    {registered : Bool} {k : Nat} {calls : List (Turn.Call α β)}
    (hlog : log = pre ++ .served .start e registered k calls :: since) (hk : 0 < k) :
    Heeded phase heard since := by
  -- on the chronicle, each step adding at most two sightings at its end
  induction h generalizing since with
  | nothing => cases pre <;> cases hlog
  | begins c h ih =>
    obtain ⟨m, rfl, hm⟩ := eq_append_of_concat_ne hlog nofun
    exact (ih hm).concat fun hrun => by cases hrun
  | waits events h ih =>
    obtain ⟨m, rfl, hm⟩ := eq_append_of_concat_ne hlog nofun
    exact (ih hm).concat fun _ hheard => by cases hheard
  | @fails log c f h ih =>
    have hlog' : (log ++ [.waited c (.error f)]) ++ [c.failed f]
        = pre ++ .served .start e registered k calls :: since := by simpa using hlog
    obtain ⟨m, rfl, hm⟩ := eq_append_of_concat_ne hlog' (by cases c <;> nofun)
    obtain ⟨m', rfl, hm'⟩ := eq_append_of_concat_ne hm nofun
    -- a loop that has heard a command does not get as far as a wait
    have hwait : Heeded (.ready c) false (m' ++ [.waited c (.error f)]) :=
      (ih hm').concat fun _ hheard => by cases hheard
    exact hwait.concat fun _ hheard => by cases hheard
  | @hears log c e' rest count heard he registered' commands h ih =>
    rcases concat_eq_append_cons hlog with ⟨rfl, -, hx⟩ | ⟨m, rfl, hm⟩
    · cases hx
      refine .inr ⟨rfl, ?_, fun c r => List.not_mem_nil⟩
      simp [hk]
    · refine (ih hm).serve (Phase.isRunning_batch _ _ _) (fun hheard => ?_) _ _ _ _
      rw [hheard, Bool.true_or]
  -- the turns of other events take no commands out
  | passes he h ih =>
    obtain ⟨m, rfl, hm⟩ := eq_append_of_concat_ne hlog (by rintro ⟨⟩; cases hk)
    exact (ih hm).serve (Phase.isRunning_batch _ _ _) id _ _ _ _
  | reaches he hcalls h ih =>
    obtain ⟨m, rfl, hm⟩ := eq_append_of_concat_ne hlog (by rintro ⟨⟩; cases hk)
    exact (ih hm).serve (Phase.isRunning_batch _ _ _) id _ _ _ _
  | overruns he hcalls h ih =>
    obtain ⟨m, rfl, hm⟩ := eq_append_of_concat_ne hlog (by rintro ⟨⟩; cases hk)
    exact (ih hm).serve (Phase.isRunning_stuck _) id _ _ _ _
  | looks h ih =>
    rcases ih hlog with hback | ⟨-, hheard, hnone⟩
    · exact .inl hback
    · exact .inr ⟨rfl, hheard, hnone⟩
  | stops h ih =>
    obtain ⟨m, rfl, hm⟩ := eq_append_of_concat_ne hlog nofun
    exact (ih hm).concat fun _ _ hnone => .inl ⟨m, [], rfl, hnone⟩
  | counts h ih =>
    obtain ⟨m, rfl, hm⟩ := eq_append_of_concat_ne hlog nofun
    exact (ih hm).concat fun hrun => by cases hrun

/-- **A call that begins waits before anything else is seen of it**, whatever was heard before. -/
theorem begun_waits (h : Chronicle n log phase heard) {pre since : List (Sighting α β)}
    {c : Callee} (hlog : log = pre ++ .begun c :: since) : AtOnce c phase heard since := by
  -- on the chronicle: only the phase in which the call begins has seen nothing of it yet
  induction h generalizing since with
  | nothing => cases pre <;> cases hlog
  | begins c' h ih =>
    rcases concat_eq_append_cons hlog with ⟨rfl, -, hx⟩ | ⟨m, rfl, hm⟩
    · cases hx
      exact .inl ⟨rfl, rfl, rfl⟩
    · exact (ih hm).concat fun hphase => by cases hphase
  | waits events h ih =>
    obtain ⟨m, rfl, hm⟩ := eq_append_of_concat_ne hlog nofun
    refine (ih hm).concat fun hphase _ => ?_
    cases hphase
    exact ⟨.ok events, rfl⟩
  | @fails log c' f h ih =>
    have hlog' : (log ++ [.waited c' (.error f)]) ++ [c'.failed f] = pre ++ .begun c :: since := by
      simpa using hlog
    obtain ⟨m, rfl, hm⟩ := eq_append_of_concat_ne hlog' (by cases c' <;> nofun)
    obtain ⟨m', rfl, hm'⟩ := eq_append_of_concat_ne hm nofun
    have hwait : AtOnce c .idle false (m' ++ [.waited c' (.error f)]) := by
      refine (ih hm').concat fun hphase _ => ?_
      cases hphase
      exact ⟨.error f, rfl⟩
    exact hwait.concat fun hphase => by cases hphase
  | hears he registered commands h ih =>
    obtain ⟨m, rfl, hm⟩ := eq_append_of_concat_ne hlog nofun
    exact (ih hm).concat fun hphase => by cases hphase
  | passes he h ih =>
    obtain ⟨m, rfl, hm⟩ := eq_append_of_concat_ne hlog nofun
    exact (ih hm).concat fun hphase => by cases hphase
  | reaches he hcalls h ih =>
    obtain ⟨m, rfl, hm⟩ := eq_append_of_concat_ne hlog nofun
    exact (ih hm).concat fun hphase => by cases hphase
  | overruns he hcalls h ih =>
    obtain ⟨m, rfl, hm⟩ := eq_append_of_concat_ne hlog nofun
    exact (ih hm).concat fun hphase => by cases hphase
  | looks h ih =>
    rcases ih hlog with ⟨-, hphase, -⟩ | hwait
    · cases hphase
    · exact .inr hwait
  | stops h ih =>
    obtain ⟨m, rfl, hm⟩ := eq_append_of_concat_ne hlog nofun
    exact (ih hm).concat fun _ hheard => by cases hheard
  | counts h ih =>
    obtain ⟨m, rfl, hm⟩ := eq_append_of_concat_ne hlog nofun
    exact (ih hm).concat fun hphase => by cases hphase

end Chronicle

/-! ### Commands and the channel -/

/-- How many commands were taken out of the control channel. -/
def commands : List (Sighting α β) → Nat
  | [] => 0
  | s :: log => s.heard + commands log

theorem commands_append (log log' : List (Sighting α β)) :
    commands (log ++ log') = commands log + commands log' := by
  induction log with
  | nil => exact (Nat.zero_add _).symm
  | cons s log ih => rw [List.cons_append, commands, commands, ih, Nat.add_assoc]

namespace Worker

variable {react : Reaction α → Turn ρ (Reaction β)} {w : Worker ρ α β}

/-- How many commands are queued. -/
def pending (w : Worker ρ α β) : Nat := w.loop.system.control.queue.length

theorem pending_await (w : Worker ρ α β) (c : Callee) : ∃ new,
    (w.await c).log = w.log ++ new ∧ w.pending ≤ commands new + (w.await c).pending := by
  obtain ⟨answer, l, hsystem, hawait⟩ := Turn.run_await (c.timeout w.loop) w.loop
  have hsame : w.pending ≤ l.system.control.queue.length := by
    unfold pending
    rw [hsystem]
  unfold await
  rw [hawait w.root]
  cases answer with
  | error f => exact ⟨_, rfl, Nat.le_add_left_of_le hsame⟩
  | ok events => exact ⟨_, rfl, Nat.le_add_left_of_le hsame⟩

theorem pending_serve (react : Reaction α → Turn ρ (Reaction β)) (n : Nat) (w : Worker ρ α β)
    (c : Callee) (e : Event) (rest : List Event) (count : Nat) : ∃ new,
    (w.serve react n c e rest count).log = w.log ++ new ∧
      w.pending ≤ commands new + (w.serve react n c e rest count).pending := by
  unfold serve
  rcases (Turn.handle (Turn.logged react) n e).run ((w.root, []), w.loop)
    with ⟨got, ⟨r, calls⟩, l⟩
  refine ⟨_, rfl, ?_⟩
  simp only [commands, pending, Sighting.heard]
  omega

theorem pending_advance (react : Reaction α → Turn ρ (Reaction β)) (n : Nat)
    (w : Worker ρ α β) : ∃ new, (w.advance react n).log = w.log ++ new ∧
      w.pending ≤ commands new + (w.advance react n).pending := by
  obtain ⟨r, l, phase, log⟩ := w
  cases phase with
  | idle => exact ⟨[], (List.append_nil log).symm, Nat.le_add_left _ _⟩
  | ready c =>
    cases c with
    | poll t => exact pending_await _ (.poll t)
    | start =>
      unfold advance
      dsimp only
      split
      · exact ⟨_, rfl, Nat.le_add_left _ _⟩
      · exact pending_await _ .start
  | batch c rest count =>
    cases rest with
    | cons e rest => exact pending_serve react n _ c e rest count
    | nil =>
      cases c with
      | start => exact ⟨[], (List.append_nil log).symm, Nat.le_add_left _ _⟩
      | poll t => exact ⟨_, rfl, Nat.le_add_left _ _⟩
  | stuck c => exact ⟨[], (List.append_nil log).symm, Nat.le_add_left _ _⟩

/-- A command leaves the channel only when it is heard. -/
theorem pending_act (react : Reaction α → Turn ρ (Reaction β)) (n : Nat) (w : Worker ρ α β)
    (a : Act) : ∃ new, (w.act react n a).log = w.log ++ new ∧
      w.pending ≤ commands new + (w.act react n a).pending := by
  have hbegin : ∀ (c : Callee) (l : Loop), l.system.control = w.loop.system.control → ∃ new,
      (w.begin c l).log = w.log ++ new ∧ w.pending ≤ commands new + (w.begin c l).pending := by
    intro c l hsame
    unfold begin
    split
    · refine ⟨_, rfl, Nat.le_add_left_of_le ?_⟩
      show w.loop.system.control.queue.length ≤ l.system.control.queue.length
      rw [hsame]
    · exact ⟨[], (List.append_nil _).symm, Nat.le_add_left _ _⟩
  -- what the loop alone does leaves the queue of commands at least as long
  have hspares : ∀ l : Loop, w.loop.SparesControl l → ∃ new,
      w.log = w.log ++ new ∧ w.pending ≤ commands new + l.system.control.queue.length := by
    intro l hl
    exact ⟨[], (List.append_nil _).symm, Nat.le_add_left_of_le hl.queue_prefix.length_le⟩
  cases a with
  | start => exact hbegin .start _ rfl
  | poll t => exact hbegin (.poll t) _ rfl
  | go => exact w.pending_advance react n
  | request q =>
    unfold act
    dsimp only
    split
    · exact hspares _ (w.loop.sparesControl_serve q)
    · exact hspares _ (.refl _)
  | attach => exact hspares _ ⟨rfl, List.prefix_rfl⟩
  | detach => exact hspares _ ⟨rfl, List.prefix_rfl⟩
  | tell => exact hspares _ w.loop.sparesControl_tell
  | elsewhere h => exact hspares _ ⟨rfl, List.prefix_rfl⟩

/-- A command is queued until it is heard. -/
theorem pending_run (react : Reaction α → Turn ρ (Reaction β)) (n : Nat) (acts : List Act) :
    ∀ w : Worker ρ α β, ∃ new, (w.run react n acts).log = w.log ++ new ∧
      w.pending ≤ commands new + (w.run react n acts).pending := by
  induction acts with
  | nil =>
    intro w
    exact ⟨[], (List.append_nil _).symm, Nat.le_add_left _ _⟩
  | cons a acts ih =>
    intro w
    obtain ⟨first, hfirst, hle⟩ := w.pending_act react n a
    obtain ⟨more, hmore, hle'⟩ := ih (w.act react n a)
    refine ⟨first ++ more, ?_, ?_⟩
    · rw [← List.append_assoc, ← hfirst]
      exact hmore
    · rw [commands_append]
      have hrest : (w.act react n a).pending ≤
          commands more + (w.run react n (a :: acts)).pending := hle'
      omega

/-! ### Commands that are lost -/

/-- Whoever was the last to tell the loop to stop is let down: a batch of `c` hears the command,
and a running loop waits after that, although none has come back well in between. -/
def Lost (react : Reaction α → Turn ρ (Reaction β)) (n : Nat) (w : Worker ρ α β)
    (acts : List Act) (c : Callee) : Prop :=
  ∃ pre e registered k calls since r post, (w.run react n acts).log
      = w.log ++ (pre ++ .served c e registered k calls :: (since ++ .waited .start r :: post)) ∧
    commands pre < w.pending ∧ w.pending ≤ commands pre + k ∧
    .ended (.ok ()) ∉ pre ++ since

/-- A list that goes on in two ways: what comes first in one of them comes before the rest of the
other. -/
theorem mem_of_append_cons_eq {γ : Type} {l l' m m' : List γ} {x y : γ}
    (h : l ++ x :: m = l' ++ y :: m') (hne : x ≠ y) : x ∈ l' ∨ y ∈ l := by
  rcases List.append_eq_append_iff.mp h with ⟨t, rfl, ht⟩ | ⟨t, rfl, ht⟩
  · cases t with
    | nil => exact absurd (List.cons.inj ht).1 hne
    | cons z t =>
      obtain ⟨rfl, -⟩ := List.cons.inj ht
      exact .inl (by simp)
  · cases t with
    | nil => exact absurd (List.cons.inj ht).1.symm hne
    | cons z t =>
      obtain ⟨rfl, -⟩ := List.cons.inj ht
      exact .inr (by simp)

/-- **A command is lost if a single batch hears it, and only then.**  It is queued until it is
heard.  If a batch of the running loop hears it, the loop does not wait again before it has come
back.  If a single batch hears it, the loop that starts next is on its way to wait as soon as
anything else is seen of it. -/
theorem stop_spec (hroot : Turn.SparesControl react) (n : Nat) (r : ρ) (l : Loop)
    (before acts : List Act) {w : Worker ρ α β} (hw : (new r l).run react n before = w) :
    (∃ more, (w.run react n acts).log = w.log ++ more ∧
      w.pending ≤ commands more + (w.run react n acts).pending) ∧
    ¬ w.Lost react n acts .start ∧
    (∀ t pre e registered k calls since x post, (w.run react n acts).log
        = w.log ++ (pre ++ .served (.poll t) e registered k calls ::
          (since ++ .begun .start :: x :: post)) →
      commands pre < w.pending → w.pending ≤ commands pre + k →
      .ended (.ok ()) ∉ pre ++ since → w.Lost react n acts (.poll t)) := by
  have hkeeps : (w.run react n acts).Keeps n := by
    rw [← hw]
    exact chronicle_run hroot acts (chronicle_run hroot before (keeps_new n r l))
  refine ⟨pending_run react n acts w, ?_, ?_⟩
  · rintro ⟨pre, e, registered, k, calls, since, answer, post, hlog, hbefore, hafter, hended⟩
    -- the command is one of those that were heard
    have hk : 0 < k := by omega
    rw [← List.append_assoc] at hlog
    rcases hkeeps.told hlog hk with ⟨m, m', hsplit, hnone⟩ | ⟨-, -, hnone⟩
    · rcases mem_of_append_cons_eq hsplit nofun with hwaited | hback
      · exact hnone _ _ hwaited
      · exact hended (List.mem_append_right _ hback)
    · exact hnone _ _ (List.mem_append_right _ List.mem_cons_self)
  · intro t pre e registered k calls since x post hlog hbefore hafter hended
    -- the loop that starts next does not look at what was heard before
    have hstart : (w.run react n acts).log = (w.log ++ pre ++
        .served (.poll t) e registered k calls :: since) ++ .begun .start :: x :: post := by
      simpa using hlog
    have hwaits : ∃ answer, x = .waited .start answer := by
      rcases hkeeps.begun_waits hstart with ⟨hnil, -⟩ | ⟨answer, more, heq⟩
      · cases hnil
      · cases heq
        exact ⟨answer, rfl⟩
    obtain ⟨answer, rfl⟩ := hwaits
    refine ⟨pre, e, registered, k, calls, since ++ [.begun .start], answer, post, ?_, hbefore,
      hafter, ?_⟩
    · simpa using hlog
    · simpa using hended

end Worker

/-! ### One command, heard by either -/

/-- A root that gives no values. -/
def Turn.silent (_ : Reaction Unit) : Turn Unit (Reaction Unit) := return .idle

theorem Turn.sparesControl_silent : Turn.SparesControl silent := by
  intro input r l
  exact .refl l

namespace Worker

/-- A loop whose multiplexer reports the bell of the control channel once, and then fails. -/
def once : Loop where
  host := { (System.init (.standard .scripted) (Host.initial .silent)).2 with
    script := [.batch [(systemToken, .input)]] }
  system := (System.init (.standard .scripted) (Host.initial .silent)).1.toOption.getD .absent

/-- A worker that was told to stop. -/
def asked : Worker Unit Unit Unit := (new () once).run Turn.silent 0 [.tell]

/-- The running loop hears the command, and comes back. -/
theorem stop_spec_asked : asked.pending = 1 ∧
    ¬ asked.Lost Turn.silent 0 [.start, .go, .go, .go, .go] .start ∧
    (asked.run Turn.silent 0 [.start, .go, .go, .go, .go]).result? = some (.ok ()) := by
  have hspec := stop_spec Turn.sparesControl_silent 0 () once [.tell]
    [.start, .go, .go, .go, .go] rfl
  refine ⟨by decide +kernel, hspec.2.1, by decide +kernel⟩

/-- A single batch hears the command, and the loop that starts next waits all the same. -/
theorem lost_of_poll : asked.pending = 1 ∧
    ¬ ∀ c, ¬ asked.Lost Turn.silent 0 [.poll 0, .go, .go, .go, .start, .go] c := by
  refine ⟨by decide +kernel, fun hnever => hnever (.poll 0) ?_⟩
  refine ⟨[.begun (.poll 0), .waited (.poll 0) (.ok [⟨systemToken, Mask.input.ready⟩])],
    ⟨systemToken, Mask.input.ready⟩, false, 1, [], [.counted (.ok 0), .begun .start],
    .error (.os .wait .badDescriptor), [.ended (.error (.os .wait .badDescriptor))], ?_, ?_, ?_, ?_⟩
  · decide +kernel
  · decide +kernel
  · decide +kernel
  · decide +kernel

end Worker
end EventLoop

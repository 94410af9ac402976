import EventLoop.Proofs.System.Worker

/-!
# What is seen of a loop

Waits, the batches they report, and what happens in the batches all share the
table of registrations and the latch with the root, which acts on the loop while it
reacts.  Seen from outside, a loop follows a simple course all the same: what can be
seen next depends on what was seen before, and on nothing else.

## Main definitions

* `Chronicle n log phase heard` — the course of a loop: `log` is what was seen, and `heard` tells
  whether the running loop was told to stop.

## Main results

* `Worker.chronicle_act` — every step keeps to the course.
* `Worker.chronicle_spec` — **whatever the root does and others send, the loop keeps to its
  course.**

## Rules

* A batch is handled in order.  The loop's own token stands for the control channel, and a token
  that is not registered at its turn is passed over; every other event goes to the root, with the
  calls it calls for.
* The running loop waits again after a batch unless it heard a command.  If it did, the rest of
  the batch is handled, and it comes back.
* A wait that fails is the last thing before the call comes back.
* Nothing more is seen of a loop whose root goes on giving values for one event.
-/

namespace EventLoop

open Turn (Driven)

variable {ρ α β : Type}

/-! ### The course of a loop -/

/-- What can be seen of a loop: the sightings so far, what the thread of the loop is about to do,
and whether the running loop has heard a command. -/
inductive Chronicle (n : Nat) : List (Sighting α β) → Phase → Bool → Prop
  /-- Nothing has happened yet. -/
  | nothing : Chronicle n [] .idle false
  /-- A call begins. -/
  | begins {log : List (Sighting α β)} (c : Callee) (h : Chronicle n log .idle false) :
      Chronicle n (log ++ [.begun c]) (.ready c) false
  /-- A wait reports a batch. -/
  | waits {log : List (Sighting α β)} {c : Callee} (events : List Event)
      (h : Chronicle n log (.ready c) false) :
      Chronicle n (log ++ [.waited c (.ok events)]) (.batch c events 0) false
  /-- A wait fails, and so does the call. -/
  | fails {log : List (Sighting α β)} {c : Callee} (f : Failure)
      (h : Chronicle n log (.ready c) false) :
      Chronicle n (log ++ [.waited c (.error f), c.failed f]) .idle false
  /-- The loop hears its control channel, and the root is not called. -/
  | hears {log : List (Sighting α β)} {c : Callee} {e : Event} {rest : List Event} {count : Nat}
      {heard : Bool} (he : e.token = systemToken) (registered : Bool) (commands : Nat)
      (h : Chronicle n log (.batch c (e :: rest) count) heard) :
      Chronicle n (log ++ [.served c e registered commands []]) (.batch c rest count)
        (heard || decide (c = .start ∧ 0 < commands))
  /-- The token of an event is not registered, and the root is not called. -/
  | passes {log : List (Sighting α β)} {c : Callee} {e : Event} {rest : List Event} {count : Nat}
      {heard : Bool} (he : e.token ≠ systemToken)
      (h : Chronicle n log (.batch c (e :: rest) count) heard) :
      Chronicle n (log ++ [.served c e false 0 []]) (.batch c rest count) heard
  /-- The token of an event is registered, and the root is called until no value comes out. -/
  | reaches {log : List (Sighting α β)} {c : Callee} {e : Event} {rest : List Event} {count : Nat}
      {heard : Bool} {calls : List (Turn.Call α β)} (he : e.token ≠ systemToken)
      (hcalls : Driven n (.event e) calls true)
      (h : Chronicle n log (.batch c (e :: rest) count) heard) :
      Chronicle n (log ++ [.served c e true 0 calls]) (.batch c rest (count + 1)) heard
  /-- The token of an event is registered, and values come out of the root without end. -/
  | overruns {log : List (Sighting α β)} {c : Callee} {e : Event} {rest : List Event} {count : Nat}
      {heard : Bool} {calls : List (Turn.Call α β)} (he : e.token ≠ systemToken)
      (hcalls : Driven n (.event e) calls false)
      (h : Chronicle n log (.batch c (e :: rest) count) heard) :
      Chronicle n (log ++ [.served c e true 0 calls]) (.stuck c) heard
  /-- After a batch the running loop is about to wait. -/
  | looks {log : List (Sighting α β)} {count : Nat} {heard : Bool}
      (h : Chronicle n log (.batch .start [] count) heard) : Chronicle n log (.ready .start) heard
  /-- It heard a command and comes back instead. -/
  | stops {log : List (Sighting α β)} (h : Chronicle n log (.ready .start) true) :
      Chronicle n (log ++ [.ended (.ok ())]) .idle false
  /-- A single batch comes back with the number of events the root got. -/
  | counts {log : List (Sighting α β)} {t : Int} {count : Nat} {heard : Bool}
      (h : Chronicle n log (.batch (.poll t) [] count) heard) :
      Chronicle n (log ++ [.counted (.ok count)]) .idle false

namespace Worker

variable {react : Reaction α → Turn ρ (Reaction β)} {n : Nat} {w : Worker ρ α β}

/-- The running loop was told to stop. -/
def heard (w : Worker ρ α β) : Bool := w.phase.isRunning && w.loop.system.stopping

/-- What was seen follows the course of a loop. -/
def Keeps (n : Nat) (w : Worker ρ α β) : Prop := Chronicle n w.log w.phase w.heard

/-! ### The thread of the loop -/

theorem Keeps.await {c : Callee} (hw : Chronicle n w.log (.ready c) false)
    (hstop : c = .start → w.loop.system.stopping = false) : (w.await c).Keeps n := by
  obtain ⟨answer, l, hsystem, hawait⟩ := Turn.run_await (c.timeout w.loop) w.loop
  unfold Keeps Worker.await
  rw [hawait w.root]
  cases answer with
  | error f => exact .fails f hw
  | ok events =>
    -- a wait drains no command, so none is heard yet
    have hheard : heard ⟨w.root, l, .batch c events 0, w.log ++ [.waited c (.ok events)]⟩
        = false := by
      unfold heard
      cases c with
      | start => simp [hsystem, hstop rfl]
      | poll t => rfl
    dsimp only
    rw [hheard]
    exact .waits events hw

/-- In the midst of a batch of the running loop, the latch tells what was heard. -/
theorem heard_batch (r : ρ) (l : Loop) (c : Callee) (rest : List Event) (count : Nat)
    (log : List (Sighting α β)) :
    heard ⟨r, l, .batch c rest count, log⟩ = (decide (c = .start) && l.system.stopping) := by
  cases c <;> rfl

/-- And so it does after the turn of an event, whether there is an end to it or not. -/
theorem heard_after (r : ρ) (l : Loop) (c : Callee) (rest : List Event) (count : Nat)
    (got? : Option Bool) (log : List (Sighting α β)) :
    heard ⟨r, l, .after c rest count got?, log⟩ = (decide (c = .start) && l.system.stopping) := by
  cases got? with
  | none => cases c <;> rfl
  | some got => exact heard_batch r l c rest _ log

/-- The turn of one event keeps to the course. -/
theorem Keeps.serve (hroot : Turn.SparesControl react) {c : Callee} {e : Event}
    {rest : List Event} {count : Nat}
    (hw : Chronicle n w.log (.batch c (e :: rest) count)
      (decide (c = .start) && w.loop.system.stopping)) :
    (w.serve react n c e rest count).Keeps n := by
  obtain ⟨got?, calls, r, l, hrun, hcases⟩ := Turn.handle_cases hroot n e w.root w.loop
  unfold Keeps Worker.serve
  rw [hrun]
  dsimp only
  rw [heard_after]
  -- a root that spares the control channel takes no command out of it
  have hnone : w.loop.SparesControl l →
      w.loop.system.control.queue.length - l.system.control.queue.length = 0 := by
    intro hspares
    have hle := hspares.queue_prefix.length_le
    omega
  rcases hcases with ⟨he, rfl, rfl, hqueue, hstop⟩ | ⟨he, hreg, rfl, rfl, hspares⟩ |
    ⟨he, hreg, done, rfl, hdriven, hspares⟩
  · have hheard : (decide (c = .start) && l.system.stopping)
        = (decide (c = .start) && w.loop.system.stopping || decide (c = .start ∧ 0 <
          w.loop.system.control.queue.length - l.system.control.queue.length)) := by
      rw [hqueue, hstop]
      cases c with
      | poll t => rfl
      | start =>
        cases w.loop.system.control.queue with
        | nil => simp
        | cons command more => simp
    rw [hheard]
    exact hw.hears he _ _
  · rw [hreg, hspares.stopping_eq, hnone hspares]
    exact hw.passes he
  · rw [hreg, hspares.stopping_eq, hnone hspares]
    cases done with
    | false => exact hw.overruns he hdriven
    | true => exact hw.reaches he hdriven

/-- The next step of a call keeps to the course. -/
theorem Keeps.advance (hroot : Turn.SparesControl react) (hw : w.Keeps n) :
    (w.advance react n).Keeps n := by
  obtain ⟨r, l, phase, log⟩ := w
  unfold Keeps at hw
  cases phase with
  | idle => exact hw
  | ready c =>
    cases c with
    | start =>
      unfold Worker.advance
      dsimp only
      cases hstop : l.system.stopping with
      | true =>
        have hheard : heard ⟨r, l, .ready .start, log⟩ = true := hstop
        rw [hheard] at hw
        exact hw.stops
      | false =>
        have hheard : heard ⟨r, l, .ready .start, log⟩ = false := hstop
        rw [hheard] at hw
        exact Keeps.await hw fun _ => hstop
    | poll t => exact Keeps.await (c := .poll t) hw nofun
  | batch c rest count =>
    rw [heard_batch] at hw
    cases rest with
    | cons e rest => exact Keeps.serve hroot hw
    | nil =>
      cases c with
      | start => exact hw.looks
      | poll t => exact hw.counts
  | stuck c => exact hw

/-! ### All others -/

/-- Whoever leaves the latch alone changes nothing that can be seen. -/
theorem Keeps.congr (hw : w.Keeps n) {l : Loop}
    (hstop : l.system.stopping = w.loop.system.stopping) : Keeps n { w with loop := l } := by
  have hheard : heard { w with loop := l } = w.heard := by
    unfold heard
    rw [hstop]
  unfold Keeps
  rw [hheard]
  exact hw

/-- A call that begins is not told to stop. -/
theorem Keeps.begin (hw : w.Keeps n) (c : Callee) {l : Loop}
    (hstop : c = .start → l.system.stopping = false) : (w.begin c l).Keeps n := by
  obtain ⟨r, l', phase, log⟩ := w
  cases phase with
  | ready c' => exact hw
  | batch c' rest count => exact hw
  | stuck c' => exact hw
  | idle =>
    have hheard : heard ⟨r, l, .ready c, log ++ [.begun c]⟩ = false := by
      cases c with
      | start => exact hstop rfl
      | poll t => rfl
    have hnext : Keeps n ⟨r, l, .ready c, log ++ [.begun c]⟩ := by
      unfold Keeps
      rw [hheard]
      exact .begins c hw
    exact hnext

/-- Every step keeps to the course. -/
theorem chronicle_act (hroot : Turn.SparesControl react) (hw : w.Keeps n) (a : Act) :
    (w.act react n a).Keeps n := by
  -- a call or a request made while another call is under way does nothing
  cases a with
  | start => exact hw.begin .start fun _ => rfl
  | poll t => exact hw.begin (.poll t) nofun
  | go => exact hw.advance hroot
  | request q =>
    unfold act
    dsimp only
    split
    · exact hw.congr (w.loop.sparesControl_serve q).stopping_eq
    · exact hw
  | attach => exact hw.congr rfl
  | detach => exact hw.congr rfl
  | tell => exact hw.congr w.loop.sparesControl_tell.stopping_eq
  | elsewhere h => exact hw.congr rfl

theorem chronicle_run (hroot : Turn.SparesControl react) (acts : List Act) :
    ∀ {w : Worker ρ α β}, w.Keeps n → (w.run react n acts).Keeps n := by
  induction acts with
  | nil =>
    intro w hw
    exact hw
  | cons a acts ih =>
    intro w hw
    exact ih (chronicle_act hroot hw a)

theorem keeps_new (n : Nat) (r : ρ) (l : Loop) : (new r l : Worker ρ α β).Keeps n := .nothing

/-! ### What the loop does -/

/-- **Whatever the root does and others send, the loop keeps to its course**, and left alone it
does what was started or asked for: it calls the root as it was seen to, and comes back with what
it was seen to come back with.

A loop that may wait a certain number of times does not come back only if it has waited that often,
or if there is no end to the values of its root; and once it was seen to come back, it comes back
with the same result however many more times it may wait. -/
theorem chronicle_spec (hroot : Turn.SparesControl react) (n : Nat) (r : ρ) (l : Loop) :
    (∀ acts, Chronicle n ((new r l).run react n acts).log ((new r l).run react n acts).phase
      ((new r l).run react n acts).heard) ∧
    (∀ polls, ∃ k, ∃ w : Worker ρ α β,
      (new r l).run react n (.start :: List.replicate k .go) = w ∧
      (Turn.start react n polls).run (r, l) = (w.result?, w.root, w.loop) ∧
      (Turn.start (Turn.logged react) n polls).run ((r, []), l)
        = (w.result?, (w.root, w.calls), w.loop) ∧
      (w.result? = none →
        w.phase = .stuck .start ∨ (w.phase = .ready .start ∧ w.waits = polls))) ∧
    (∀ k res, ∀ w : Worker ρ α β,
      (new r l).run react n (.start :: List.replicate k .go) = w → w.result? = some res →
      ∀ polls, w.waits < polls →
        (Turn.start react n polls).run (r, l) = (some res, w.root, w.loop) ∧
        (Turn.start (Turn.logged react) n polls).run ((r, []), l)
          = (some res, (w.root, w.calls), w.loop)) ∧
    (∀ t, ∃ k res?, ∃ w : Worker ρ α β,
      (new r l).run react n (.poll t :: List.replicate k .go) = w ∧
      (∀ res, res? = some res → w.phase = .idle ∧ w.log.getLast? = some (.counted res)) ∧
      (res? = none → w.phase = .stuck (.poll t)) ∧
      (Turn.poll react n t).run (r, l) = (res?, w.root, w.loop) ∧
      (Turn.poll (Turn.logged react) n t).run ((r, []), l)
        = (res?, (w.root, w.calls), w.loop)) := by
  -- the record changes nothing else
  have hplain : ∀ {γ : Type} {t : Turn (ρ × List (Turn.Call α β)) γ} {t' : Turn ρ γ},
      Turn.Mirrors Prod.fst t t' → ∀ {c : γ} {r' : ρ} {calls : List (Turn.Call α β)} {l' : Loop},
      t.run ((r, []), l) = (c, (r', calls), l') → t'.run (r, l) = (c, r', l') := by
    intro γ t t' hmirrors c r' calls l' hrun
    have hseen := hmirrors (r, []) l
    rw [hrun] at hseen
    exact hseen
  have hlogged := Turn.simulates_logged react
  refine ⟨?_, ?_, ?_, ?_⟩
  · intro acts
    exact chronicle_run hroot acts (keeps_new n r l)
  · intro polls
    obtain ⟨k, hk, hnone⟩ := follows_start react n (new r l) polls rfl
    have hwaits : (new r l : Worker ρ α β).waits + polls = polls := Nat.zero_add polls
    rw [hwaits] at hnone
    exact ⟨k, _, rfl, hplain (hlogged.start n polls) hk, hk, hnone⟩
  · rintro k res w rfl hres polls hpolls
    have henough := start_eq_of_result? react n (w := new r l) rfl hres
      (Nat.lt_of_lt_of_eq hpolls (Nat.zero_add polls).symm)
    exact ⟨hplain (hlogged.start n polls) henough, henough⟩
  · intro t
    obtain ⟨k, res?, hk, hsome, hnone⟩ := follows_poll react n (new r l) t rfl
    exact ⟨k, res?, _, rfl, hsome, hnone, hplain (hlogged.poll n t) hk, hk⟩

end Worker

/-! ### A restless root -/

/-- A root that, given an event, frees its token, takes the next one, and tells the loop to
stop. -/
def Turn.restless (input : Reaction Unit) : Turn Unit (Reaction Nat) := do
  match input with
  | .event e =>
    Turn.modifyLoop fun l => ((l.deregister e.token).2.register (some 0) .readable).2.stop.2
    return .value 7
  | _ => return .idle

theorem Turn.sparesControl_restless : Turn.SparesControl restless := by
  intro input r l
  cases input with
  | idle => exact .refl l
  | value v => exact .refl l
  | event e =>
    have hfree := l.sparesControl_deregister e.token
    have htake := (l.deregister e.token).2.sparesControl_register (some 0) .readable
    exact (hfree.trans htake).trans (Loop.sparesControl_stop _)

namespace Worker

/-- A loop with one registration. Its multiplexer reports the token twice, a token that is not
registered, and the loop's own. -/
def busy : Loop :=
  let l := (Loop.Registering.smallStart.register (some 0) .readable).2
  { host := { l.host with
      script := [.batch [(0, .input), (9, .input), (systemToken, .input), (0, .input)]] }
    system := { l.system with poller := { l.system.poller with source := .scripted } } }

/-- The root is called for the token it frees and takes again, before and after the loop has heard
the command; then the loop comes back, and so does every loop that may wait twice or more. -/
theorem chronicle_spec_restless : ∃ w : Worker Unit Unit Nat,
    (new () busy).run Turn.restless 3 (.start :: List.replicate 7 .go) = w ∧
    Chronicle 3 w.log w.phase w.heard ∧ w.result? = some (.ok ()) ∧
    w.calls = [(.event ⟨0, Mask.input.ready⟩, .value 7), (.idle, .idle),
      (.event ⟨0, Mask.input.ready⟩, .value 7), (.idle, .idle)] ∧
    ∀ polls, 1 < polls →
      ((Turn.start Turn.restless 3 polls).run ((), busy)).1 = some (.ok ()) := by
  obtain ⟨hcourse, -, henough, -⟩ := chronicle_spec Turn.sparesControl_restless 3 () busy
  refine ⟨_, rfl, hcourse _, by decide +kernel, by decide +kernel, fun polls hpolls => ?_⟩
  have hwaits : ((new () busy).run Turn.restless 3 (.start :: List.replicate 7 .go)).waits = 1 := by
    decide +kernel
  have hback := henough 7 (.ok ()) _ rfl (by decide +kernel) polls (hwaits.symm ▸ hpolls)
  exact congrArg Prod.fst hback.1

end Worker
end EventLoop

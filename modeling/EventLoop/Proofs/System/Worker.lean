import EventLoop.Proofs.Channel.Basic
import EventLoop.Proofs.Registration.Rollback
import EventLoop.Proofs.System.Calls

/-!
# The thread of a loop among others

A loop runs on one thread.  Other threads hold senders of its control channel, and
what they send may come between any two steps of the loop.  A worker is the loop
with its root, taken one step at a time: a wait, an event of a batch, the return of
a call.  What an observer sees of it goes to a log.

## Main definitions

* `Loop.SparesControl`, `Turn.SparesControl` — what the users of a loop can do to it: anything
  but touch the latch, or take commands out of the control channel.
* `Worker` — a loop and its root in the midst of a call; `Worker.advance` is its next step.
* `Worker.Act`, `Worker.run` — steps of the worker and of all others, in any order.
* `Sighting` — what an observer sees of a step.

## Main results

* `Loop.drainControl_spec` — the loop hears every command that is queued.
* `Turn.handle_cases` — what the turn of one event can be.
* `Worker.follows_poll`, `Worker.follows_start` — **left alone, a worker does what the loop
  does.**
* `Worker.start_eq_of_result?` — once a worker has come back, so has every loop that may wait more
  often than the worker did.

## Rules

* Calls of the loop's thread do not overlap: a request, or the begin of a call, does nothing
  while another call is under way.
* A root that takes more turns for one event than it may never lets go of the thread.
-/

namespace EventLoop

/-! ### The control channel -/

namespace Loop

variable {l l' l'' : Loop}

/-- The latch is as it was, and no command has gone from the control channel. -/
structure SparesControl (l l' : Loop) : Prop where
  /-- The latch is as it was. -/
  stopping_eq : l'.system.stopping = l.system.stopping
  /-- New commands are behind the old ones. -/
  queue_prefix : l.system.control.queue <+: l'.system.control.queue

namespace SparesControl

theorem of_system_eq (h : l'.system = l.system) : l.SparesControl l' where
  stopping_eq := by rw [h]
  queue_prefix := h ▸ List.prefix_rfl

theorem refl (l : Loop) : l.SparesControl l := of_system_eq rfl

theorem trans (h : l.SparesControl l') (h' : l'.SparesControl l'') : l.SparesControl l'' where
  stopping_eq := h'.stopping_eq.trans h.stopping_eq
  queue_prefix := h.queue_prefix.trans h'.queue_prefix

end SparesControl

theorem sparesControl_registerAt (l : Loop) (fd : Option Nat) (token : Token) (i : Interest) :
    l.SparesControl (l.registerAt fd token i).2 := by
  rcases h : l.registerAt fd token i with ⟨r, l'⟩
  cases r with
  | ok u =>
    obtain ⟨-, table, host, -, -, rfl⟩ := registerAt_ok h
    exact ⟨rfl, List.prefix_rfl⟩
  | error e =>
    rcases registerAt_error h with ⟨-, -, rfl⟩ | ⟨-, -, -, rfl⟩ | ⟨table, -, -, rfl⟩
    · exact .refl _
    · exact .refl _
    · exact ⟨rfl, List.prefix_rfl⟩

theorem sparesControl_register (l : Loop) (fd : Option Nat) (i : Interest) :
    l.SparesControl (l.register fd i).2 := by
  rw [register_eq]
  exact sparesControl_registerAt l fd _ i

theorem sparesControl_reregister (l : Loop) (token : Token) (i : Interest) :
    l.SparesControl (l.reregister token i).2 := by
  rcases h : l.reregister token i with ⟨r, l'⟩
  cases r with
  | ok u =>
    obtain ⟨r, host, -, -, rfl⟩ := reregister_ok h
    exact ⟨rfl, List.prefix_rfl⟩
  | error e =>
    rw [reregister_error h]
    exact .refl l

theorem sparesControl_deregister (l : Loop) (token : Token) :
    l.SparesControl (l.deregister token).2 := by
  obtain ⟨host, h⟩ := deregister_eq l token
  rw [h]
  exact ⟨rfl, List.prefix_rfl⟩

theorem sparesControl_serve (l : Loop) (q : Request) : l.SparesControl (q.serve l).2 := by
  cases q with
  | register fd i => exact sparesControl_register l fd i
  | registerAt fd token i => exact sparesControl_registerAt l fd token i
  | reregister token i => exact sparesControl_reregister l token i
  | deregister token => exact sparesControl_deregister l token
  | elsewhere h => exact .of_system_eq rfl

theorem sparesControl_stop (l : Loop) : l.SparesControl l.stop.2 := by
  unfold stop
  split
  next control host hsend =>
    obtain ⟨-, -, rfl⟩ := Channel.send_ok hsend
    exact ⟨rfl, List.prefix_append _ _⟩
  next => exact ⟨rfl, List.prefix_rfl⟩

/-- A holder of a sender tells the loop to stop. -/
def tell (l : Loop) : Loop :=
  match l.system.control.send .stop l.host with
  | .ok (control, host) => { host := host, system := { l.system with control := control } }
  | .error _ => l

theorem sparesControl_tell (l : Loop) : l.SparesControl l.tell := by
  unfold tell
  split
  next control host hsend =>
    obtain ⟨-, -, rfl⟩ := Channel.send_ok hsend
    exact ⟨rfl, List.prefix_append _ _⟩
  next => exact .refl l

/-- Senders of the control channel come and go. -/
def withSenders (l : Loop) (f : Channel Command → Channel Command) : Loop :=
  { l with system := { l.system with control := f l.system.control } }

theorem heed_cons {c : Command} {rest : List Command} (hq : l.system.control.queue = c :: rest) :
    l.heed.system.control.queue = rest ∧ l.heed.system.stopping = true := by
  cases c
  simp only [heed, Channel.receive, hq]
  exact ⟨trivial, trivial⟩

/-- **The loop hears every command that is queued.** -/
theorem drainControl_spec (l : Loop) : l.drainControl.system.control.queue = [] ∧
    l.drainControl.system.stopping
      = (l.system.stopping || !l.system.control.queue.isEmpty) := by
  unfold drainControl
  generalize hq : l.system.control.queue = queue
  induction queue generalizing l with
  | nil =>
    refine ⟨hq, ?_⟩
    simp
  | cons c rest ih =>
    obtain ⟨hrest, hstop⟩ := heed_cons hq
    obtain ⟨hempty, hlatch⟩ := ih l.heed hrest
    refine ⟨hempty, ?_⟩
    rw [List.foldl_cons, hlatch, hstop]
    simp

end Loop

/-! ### The turn of one event -/

namespace Turn

variable {ρ α β : Type} {react : Reaction α → Turn ρ (Reaction β)}

/-- A root that uses the loop as anybody can: it leaves the latch alone, and takes no command out
of the control channel. -/
def SparesControl (react : Reaction α → Turn ρ (Reaction β)) : Prop :=
  ∀ (input : Reaction α) (r : ρ) (l : Loop), l.SparesControl ((react input).run (r, l)).2.2

theorem SparesControl.dispatch (hroot : SparesControl react) (n : Nat) (e : Event) (r : ρ)
    (calls : List (Call α β)) {l l' : Loop} (hl : l.SparesControl l') :
    l.SparesControl ((dispatch (logged react) n e).run ((r, calls), l')).2.2 := by
  refine dispatch_keeps (P := fun x => l.SparesControl x.2) ?_ ?_ n e hl
  · intro r l' notice hl'
    exact hl'.trans (.of_system_eq rfl)
  · rintro input - ⟨⟨r, calls⟩, l'⟩ hl'
    exact hl'.trans (hroot input r l')

/-- What the turn of one event can be: the loop hears its control channel, the event is passed
over, or the root is called with it, and perhaps does not come to an end. -/
theorem handle_cases (hroot : SparesControl react) (n : Nat) (e : Event) (r : ρ) (l : Loop) :
    ∃ got? calls r' l', (handle (logged react) n e).run ((r, []), l) = (got?, (r', calls), l') ∧
      ((e.token = systemToken ∧ got? = some false ∧ calls = [] ∧ l'.system.control.queue = [] ∧
          l'.system.stopping = (l.system.stopping || !l.system.control.queue.isEmpty)) ∨
        (e.token ≠ systemToken ∧ l.system.isRegistered e.token = false ∧ got? = some false ∧
          calls = [] ∧ l.SparesControl l') ∨
        (e.token ≠ systemToken ∧ l.system.isRegistered e.token = true ∧
          ∃ done, got? = (if done then some true else none) ∧ Driven n (.event e) calls done ∧
            l.SparesControl l')) := by
  rw [handle_eq]
  by_cases hsys : e.token = systemToken
  · rw [if_pos hsys]
    obtain ⟨hqueue, hlatch⟩ := l.drainControl_spec
    exact ⟨some false, [], r, l.drainControl, rfl, .inl ⟨hsys, rfl, rfl, hqueue, hlatch⟩⟩
  · rw [if_neg hsys]
    -- a token that is not registered any more is stale, and the root is not called
    cases hreg : l.system.isRegistered e.token with
    | false =>
      exact ⟨some false, [], r, l.note (.stale e), rfl,
        .inr (.inl ⟨hsys, rfl, rfl, rfl, .of_system_eq rfl⟩)⟩
    | true =>
      obtain ⟨calls, hcalls, hdriven⟩ :=
        driven_dispatch react n e r [] (l.note (.dispatched e))
      have hnote : l.SparesControl (l.note (.dispatched e)) := .of_system_eq rfl
      have hspares := hroot.dispatch n e r [] hnote
      rcases hrun : (dispatch (logged react) n e).run ((r, []), l.note (.dispatched e))
        with ⟨done, ⟨r', made⟩, l'⟩
      rw [hrun] at hcalls hdriven hspares
      have hmade : made = calls := hcalls
      subst hmade
      exact ⟨_, made, r', l', rfl, .inr (.inr ⟨hsys, rfl, done, rfl, hdriven, hspares⟩)⟩

/-- A wait has nothing to do with the root or with the system. -/
theorem run_await (t : Int) (l : Loop) : ∃ answer l', l'.system = l.system ∧
    ∀ {σ : Type} (r : σ), (await t : Turn σ (Except Failure (List Event))).run (r, l)
      = (answer, r, l') := by
  refine ⟨_, _, ?_, fun r => rfl⟩
  split <;> rfl

end Turn

/-! ### Steps -/

/-- A call that waits and handles what is reported. -/
inductive Callee
  /-- The running loop. -/
  | start
  /-- A single batch, with a timeout of its own. -/
  | poll (timeout : Int)
  deriving DecidableEq

/-- What an observer sees of the loop. -/
inductive Sighting (α β : Type)
  /-- A call begins. -/
  | begun (c : Callee)
  /-- A wait, and what it gave. -/
  | waited (c : Callee) (r : Except Failure (List Event))
  /-- The turn of an event: was its token registered, how many commands were taken out of the
  control channel, and what was the root called with? -/
  | served (c : Callee) (e : Event) (registered : Bool) (heard : Nat) (calls : List (Turn.Call α β))
  /-- The running loop comes back. -/
  | ended (r : Except Failure Unit)
  /-- A single batch comes back with a count. -/
  | counted (r : Except Failure Nat)
  deriving DecidableEq

namespace Sighting

variable {α β : Type}

/-- The calls of the root. -/
def calls : Sighting α β → List (Turn.Call α β)
  | .served _ _ _ _ calls => calls
  | _ => []

/-- The number of commands taken out of the control channel. -/
def heard : Sighting α β → Nat
  | .served _ _ _ heard _ => heard
  | _ => 0

/-- What the running loop comes back with. -/
def result? : Sighting α β → Option (Except Failure Unit)
  | .ended r => some r
  | _ => none

/-- Is it a wait? -/
def isWait : Sighting α β → Bool
  | .waited .. => true
  | _ => false

end Sighting

namespace Callee

/-- How long it waits. -/
def timeout (c : Callee) (l : Loop) : Int :=
  match c with
  | .start => l.system.config.timeout
  | .poll t => t

/-- It comes back with a failure. -/
def failed {α β : Type} (f : Failure) : Callee → Sighting α β
  | .start => .ended (.error f)
  | .poll _ => .counted (.error f)

end Callee

/-- What the thread of the loop is about to do. -/
inductive Phase
  /-- Nothing. -/
  | idle
  /-- Wait, unless the running loop was told to stop. -/
  | ready (c : Callee)
  /-- Handle the rest of a batch, of which the root got some events already. -/
  | batch (c : Callee) (rest : List Event) (count : Nat)
  /-- Give the root one turn after the other, in the midst of a batch, and without end. -/
  | stuck (c : Callee)

namespace Phase

/-- Is this the running loop? -/
def isRunning : Phase → Bool
  | .ready .start => true
  | .batch .start _ _ => true
  | .stuck .start => true
  | _ => false

/-- What follows the turn of an event: the rest of the batch, if there is an end to the turn. -/
def after (c : Callee) (rest : List Event) (count : Nat) : Option Bool → Phase
  | none => .stuck c
  | some got => .batch c rest (if got then count + 1 else count)

end Phase

/-- A loop and its root in the midst of a call. -/
structure Worker (ρ α β : Type) where
  /-- The root. -/
  root : ρ
  /-- The loop. -/
  loop : Loop
  /-- What the thread of the loop is about to do. -/
  phase : Phase
  /-- What was seen so far. -/
  log : List (Sighting α β)

namespace Worker

variable {ρ α β : Type}

/-- A loop and its root before the first call. -/
def new (r : ρ) (l : Loop) : Worker ρ α β := ⟨r, l, .idle, []⟩

/-- A step of the thread of the loop, or of another. -/
inductive Act
  /-- The loop is started. -/
  | start
  /-- A single batch is asked for. -/
  | poll (timeout : Int)
  /-- The call goes on. -/
  | go
  /-- A registration is asked for between two calls. -/
  | request (q : Loop.Request)
  /-- A sender of the control channel comes. -/
  | attach
  /-- A sender goes. -/
  | detach
  /-- A sender tells the loop to stop. -/
  | tell
  /-- Something happens on the host. -/
  | elsewhere (h : Host)

/-- One wait. -/
def await (w : Worker ρ α β) (c : Callee) : Worker ρ α β :=
  match (Turn.await (c.timeout w.loop)).run (w.root, w.loop) with
  | (.ok events, r, l) =>
    { root := r, loop := l, phase := .batch c events 0, log := w.log ++ [.waited c (.ok events)] }
  | (.error f, r, l) =>
    { root := r, loop := l, phase := .idle, log := w.log ++ [.waited c (.error f), c.failed f] }

/-- The turn of one event. -/
def serve (react : Reaction α → Turn ρ (Reaction β)) (n : Nat) (w : Worker ρ α β) (c : Callee)
    (e : Event) (rest : List Event) (count : Nat) : Worker ρ α β :=
  match (Turn.handle (Turn.logged react) n e).run ((w.root, []), w.loop) with
  | (got?, (r, calls), l) =>
    { root := r, loop := l, phase := .after c rest count got?,
      log := w.log ++ [.served c e (w.loop.system.isRegistered e.token)
        (w.loop.system.control.queue.length - l.system.control.queue.length) calls] }

/-- The next step of a call. -/
def advance (react : Reaction α → Turn ρ (Reaction β)) (n : Nat) (w : Worker ρ α β) :
    Worker ρ α β :=
  match w.phase with
  | .idle => w
  | .ready .start =>
    if w.loop.system.stopping then
      { w with loop := w.loop.note .stopped, phase := .idle, log := w.log ++ [.ended (.ok ())] }
    else w.await .start
  | .ready (.poll t) => w.await (.poll t)
  | .batch c (e :: rest) count => w.serve react n c e rest count
  | .batch .start [] _ => { w with phase := .ready .start }
  | .batch (.poll _) [] count =>
    { w with phase := .idle, log := w.log ++ [.counted (.ok count)] }
  | .stuck _ => w

/-- A call begins, unless another is under way. -/
def begin (w : Worker ρ α β) (c : Callee) (l : Loop) : Worker ρ α β :=
  match w.phase with
  | .idle => { w with loop := l, phase := .ready c, log := w.log ++ [.begun c] }
  | _ => w

/-- One step. -/
def act (react : Reaction α → Turn ρ (Reaction β)) (n : Nat) (w : Worker ρ α β) :
    Act → Worker ρ α β
  | .start =>
    w.begin .start
      ({ w.loop with system := { w.loop.system with stopping := false } }.note .started)
  | .poll t => w.begin (.poll t) w.loop
  | .go => w.advance react n
  | .request q =>
    match w.phase with
    | .idle => { w with loop := (q.serve w.loop).2 }
    | _ => w
  | .attach => { w with loop := w.loop.withSenders Channel.attach }
  | .detach => { w with loop := w.loop.withSenders Channel.detach }
  | .tell => { w with loop := w.loop.tell }
  | .elsewhere h => { w with loop := { w.loop with host := h } }

/-- Steps one after the other. -/
def run (react : Reaction α → Turn ρ (Reaction β)) (n : Nat) (w : Worker ρ α β)
    (acts : List Act) : Worker ρ α β := acts.foldl (act react n) w

/-- How many waits there were so far. -/
def waits (w : Worker ρ α β) : Nat := w.log.countP Sighting.isWait

/-- All calls of the root so far. -/
def calls (w : Worker ρ α β) : List (Turn.Call α β) := w.log.flatMap Sighting.calls

/-- The root with the record of its calls, and the loop. -/
def state (w : Worker ρ α β) : (ρ × List (Turn.Call α β)) × Loop := ((w.root, w.calls), w.loop)

/-- What the running loop came back with, if that was the last thing that happened. -/
def result? (w : Worker ρ α β) : Option (Except Failure Unit) :=
  match w.phase with
  | .idle => w.log.getLast?.bind Sighting.result?
  | _ => none

/-! ### A worker that is left alone -/

variable {react : Reaction α → Turn ρ (Reaction β)} {n : Nat} {w : Worker ρ α β}

/-- The thread of the loop goes on by itself. -/
def goOn (react : Reaction α → Turn ρ (Reaction β)) (n : Nat) (w : Worker ρ α β) (k : Nat) :
    Worker ρ α β := w.run react n (List.replicate k .go)

theorem goOn_succ (w : Worker ρ α β) (k : Nat) :
    w.goOn react n (k + 1) = (w.advance react n).goOn react n k := rfl

theorem goOn_add (w : Worker ρ α β) (j k : Nat) :
    w.goOn react n (j + k) = (w.goOn react n j).goOn react n k := by
  unfold goOn run
  rw [List.replicate_add, List.foldl_append]

/-- The turn of one event, with the record so far. -/
theorem run_serve (react : Reaction α → Turn ρ (Reaction β)) (n : Nat) (w : Worker ρ α β)
    (c : Callee) (e : Event) (rest : List Event) (count : Nat) :
    ∃ got?, (Turn.handle (Turn.logged react) n e).run w.state
        = (got?, (w.serve react n c e rest count).state) ∧
      (w.serve react n c e rest count).waits = w.waits ∧
      (w.serve react n c e rest count).phase = .after c rest count got? := by
  have hshift := (Turn.logged_shift react w.calls).handle n e (w.root, []) w.loop
  rw [List.append_nil] at hshift
  rcases hrun : (Turn.handle (Turn.logged react) n e).run ((w.root, []), w.loop)
    with ⟨got?, ⟨r, made⟩, l⟩
  rw [hrun] at hshift
  refine ⟨got?, ?_, ?_, ?_⟩
  · unfold state serve calls
    rw [hrun, List.flatMap_append, List.flatMap_singleton]
    exact hshift
  · unfold serve waits
    rw [hrun]
    simp [Sighting.isWait]
  · unfold serve
    rw [hrun]

/-- A batch is handled to its end, unless the root is not done with one of its events. -/
theorem follows_batch (react : Reaction α → Turn ρ (Reaction β)) (n : Nat) (c : Callee)
    (events : List Event) : ∀ (w : Worker ρ α β) (count : Nat),
    w.phase = .batch c events count → ∃ k total?,
      (Turn.handleAll (Turn.logged react) n events).run w.state
        = (total?, (w.goOn react n k).state) ∧
      (w.goOn react n k).waits = w.waits ∧
      (∀ total, total? = some total → (w.goOn react n k).phase = .batch c [] (count + total)) ∧
      (total? = none → (w.goOn react n k).phase = .stuck c) := by
  induction events with
  | nil =>
    intro w count hw
    refine ⟨0, some 0, rfl, rfl, fun total htotal => ?_, fun hnone => by cases hnone⟩
    cases htotal
    exact hw
  | cons e rest ih =>
    intro w count hw
    have hstep : w.advance react n = w.serve react n c e rest count := by
      unfold advance
      rw [hw]
    obtain ⟨got?, hrun, hwaits, hphase⟩ := run_serve react n w c e rest count
    rw [Turn.handleAll, Tree.run_bind_of_run hrun]
    cases got? with
    | none =>
      -- the rest of the batch is never looked at
      refine ⟨1, none, ?_, ?_, fun total htotal => ?_, fun _ => ?_⟩
      · rw [goOn_succ, hstep]
        rfl
      · rw [goOn_succ, hstep]
        exact hwaits
      · cases htotal
      · rw [goOn_succ, hstep]
        exact hphase
    | some got =>
      obtain ⟨k, total?, hall, hsame, hend, hstuck⟩ := ih _ _ hphase
      refine ⟨k + 1, total?.map fun total => if got then total + 1 else total, ?_, ?_, ?_, ?_⟩
      · rw [goOn_succ, hstep]
        dsimp only
        rw [Tree.run_bind_of_run hall]
        rfl
      · rw [goOn_succ, hstep, hsame, hwaits]
      · intro total htotal
        obtain ⟨more, rfl, rfl⟩ := Option.map_eq_some_iff.mp htotal
        rw [goOn_succ, hstep, hend more rfl]
        cases got with
        | false => rfl
        | true => rw [if_pos rfl, if_pos rfl, Nat.add_assoc, Nat.add_comm 1 more]
      · intro hnone
        rw [goOn_succ, hstep]
        exact hstuck (Option.map_eq_none_iff.mp hnone)

/-- One wait and its batch. -/
theorem follows_await (w : Worker ρ α β) (c : Callee) (hw : w.advance react n = w.await c) :
    ∃ k res?, (Turn.poll (Turn.logged react) n (c.timeout w.loop)).run w.state
        = (res?, (w.goOn react n k).state) ∧
      (w.goOn react n k).waits = w.waits + 1 ∧
      (∀ count, res? = some (.ok count) → (w.goOn react n k).phase = .batch c [] count) ∧
      (∀ f, res? = some (.error f) → (w.goOn react n k).phase = .idle ∧
        (w.goOn react n k).log.getLast? = some (c.failed f)) ∧
      (res? = none → (w.goOn react n k).phase = .stuck c) := by
  obtain ⟨answer, l, -, hawait⟩ := Turn.run_await (c.timeout w.loop) w.loop
  have hroot := hawait w.root
  have hstate := hawait (w.root, w.calls)
  unfold Turn.poll state
  rw [Tree.run_bind_of_run hstate]
  cases answer with
  | error f =>
    have hstep : w.goOn react n 1
        = ⟨w.root, l, .idle, w.log ++ [.waited c (.error f), c.failed f]⟩ := by
      rw [goOn_succ, hw, Worker.await, hroot]
      rfl
    refine ⟨1, some (.error f), ?_, ?_, nofun, ?_, nofun⟩
    · -- neither the wait nor the return calls the root
      have hcalls : (w.goOn react n 1).calls = w.calls := by
        cases c <;> simp [hstep, calls, Sighting.calls, Callee.failed]
      rw [hcalls, hstep]
      rfl
    · rw [hstep]
      cases c <;> exact List.countP_append
    · rintro f' hf
      cases hf
      rw [hstep]
      exact ⟨rfl, by simp⟩
  | ok events =>
    have hstep : w.advance react n
        = ⟨w.root, l, .batch c events 0, w.log ++ [.waited c (.ok events)]⟩ := by
      rw [hw, Worker.await, hroot]
    have hcalls : (w.advance react n).calls = w.calls := by
      simp [hstep, calls, Sighting.calls]
    have hwaits : (w.advance react n).waits = w.waits + 1 := by
      simp [hstep, waits, Sighting.isWait]
    obtain ⟨k, total?, hall, hsame, hend, hstuck⟩ :=
      follows_batch react n c events (w.advance react n) 0 (by rw [hstep])
    refine ⟨k + 1, total?.map .ok, ?_, ?_, ?_, ?_, ?_⟩
    · rw [state, hcalls, hstep] at hall
      dsimp only
      rw [Tree.run_bind_of_run hall, goOn_succ, hstep]
      rfl
    · rw [goOn_succ, hsame, hwaits]
    · intro count hcount
      obtain ⟨total, rfl, htotal⟩ := Option.map_eq_some_iff.mp hcount
      cases htotal
      rw [goOn_succ, hend count rfl, Nat.zero_add]
    · intro f hf
      obtain ⟨total, -, htotal⟩ := Option.map_eq_some_iff.mp hf
      cases htotal
    · intro hnone
      exact hstuck (Option.map_eq_none_iff.mp hnone)

/-- A single batch, from its begin to its return, if it returns. -/
theorem follows_poll (react : Reaction α → Turn ρ (Reaction β)) (n : Nat) (w : Worker ρ α β)
    (t : Int) (hw : w.phase = .idle) : ∃ k res?,
    (Turn.poll (Turn.logged react) n t).run w.state
        = (res?, ((w.act react n (.poll t)).goOn react n k).state) ∧
      (∀ res, res? = some res → ((w.act react n (.poll t)).goOn react n k).phase = .idle ∧
        ((w.act react n (.poll t)).goOn react n k).log.getLast? = some (.counted res)) ∧
      (res? = none →
        ((w.act react n (.poll t)).goOn react n k).phase = .stuck (.poll t)) := by
  have hbegin : w.act react n (.poll t)
      = ⟨w.root, w.loop, .ready (.poll t), w.log ++ [.begun (.poll t)]⟩ := by
    simp only [act, begin, hw]
  have hstate : (w.act react n (.poll t)).state = w.state := by
    simp [hbegin, state, calls, Sighting.calls]
  generalize w.act react n (.poll t) = v at hbegin hstate
  have hadvance : v.advance react n = v.await (.poll t) := by
    rw [hbegin]
    rfl
  obtain ⟨k, res?, hrun, -, hok, herror, hstuck⟩ := v.follows_await (.poll t) hadvance
  have hrun : (Turn.poll (Turn.logged react) n t).run v.state
      = (res?, (v.goOn react n k).state) := hrun
  rw [hstate] at hrun
  rcases res? with _ | ⟨f | count⟩
  · exact ⟨k, none, hrun, nofun, hstuck⟩
  · refine ⟨k, some (.error f), hrun, ?_, nofun⟩
    rintro res ⟨⟩
    exact herror f rfl
  · have hphase := hok count rfl
    have hlast : v.goOn react n (k + 1)
        = { v.goOn react n k with
            phase := .idle
            log := (v.goOn react n k).log ++ [.counted (.ok count)] } := by
      rw [goOn_add]
      show (v.goOn react n k).advance react n = _
      unfold advance
      rw [hphase]
    refine ⟨k + 1, some (.ok count), ?_, ?_, nofun⟩
    · rw [hlast]
      simpa [state, calls, Sighting.calls] using hrun
    · rintro res ⟨⟩
      rw [hlast]
      exact ⟨rfl, List.getLast?_concat⟩

/-- The running loop, once it looks whether it was told to stop. Without an answer it is in the
midst of an event, or has waited as often as it may. -/
theorem follows_keepPolling (react : Reaction α → Turn ρ (Reaction β)) (n polls : Nat) :
    ∀ w : Worker ρ α β, w.phase = .ready .start → ∃ k,
    (Turn.keepPolling (Turn.logged react) n polls).run w.state
        = ((w.goOn react n k).result?, (w.goOn react n k).state) ∧
      ((w.goOn react n k).result? = none → (w.goOn react n k).phase = .stuck .start ∨
        ((w.goOn react n k).phase = .ready .start ∧
          (w.goOn react n k).waits = w.waits + polls)) := by
  induction polls with
  | zero =>
    intro w hw
    have hnone : w.result? = none := by rw [result?, hw]
    refine ⟨0, ?_, fun _ => .inr ⟨hw, rfl⟩⟩
    show (none, w.state) = (w.result?, w.state)
    rw [hnone]
  | succ polls ih =>
    intro w hw
    have hloop : (Turn.loop : Turn (ρ × List (Turn.Call α β)) Loop).run w.state
        = (w.loop, w.state) := rfl
    rw [Turn.keepPolling, Tree.run_bind_of_run hloop]
    cases hstop : w.loop.system.stopping with
    | true =>
      have hstep : w.goOn react n 1
          = ⟨w.root, w.loop.note .stopped, .idle, w.log ++ [.ended (.ok ())]⟩ := by
        rw [goOn_succ]
        show w.advance react n = _
        simp only [advance, hw, hstop, if_true]
      have hresult : (w.goOn react n 1).result? = some (.ok ()) := by
        simp [hstep, result?, Sighting.result?]
      refine ⟨1, ?_, fun hnone => absurd (hresult.symm.trans hnone) nofun⟩
      rw [hresult, hstep]
      simp [state, calls, Sighting.calls]
      rfl
    | false =>
      have hadvance : w.advance react n = w.await .start := by
        simp only [advance, hw, hstop, Bool.false_eq_true, if_false]
      obtain ⟨k, res?, hrun, hwaits, hok, herror, hstuck⟩ := w.follows_await .start hadvance
      have hpoll : (Turn.poll (Turn.logged react) n w.loop.system.config.timeout).run w.state
          = (res?, (w.goOn react n k).state) := hrun
      rw [if_neg Bool.false_ne_true, Tree.run_bind_of_run hloop, Tree.run_bind_of_run hpoll]
      rcases res? with _ | ⟨f | count⟩
      · have hphase := hstuck rfl
        have hresult : (w.goOn react n k).result? = none := by rw [result?, hphase]
        refine ⟨k, ?_, fun _ => .inl hphase⟩
        rw [hresult]
        rfl
      · obtain ⟨hidle, hlast⟩ := herror f rfl
        have hresult : (w.goOn react n k).result? = some (.error f) := by
          rw [result?, hidle]
          dsimp only
          rw [hlast]
          rfl
        refine ⟨k, ?_, fun hnone => absurd (hresult.symm.trans hnone) nofun⟩
        rw [hresult]
        rfl
      · -- the batch is handled, and the loop looks again
        have hagain : (w.goOn react n k).advance react n
            = { w.goOn react n k with phase := .ready .start } := by
          unfold advance
          rw [hok count rfl]
        have hsame : ((w.goOn react n k).advance react n).state = (w.goOn react n k).state ∧
            ((w.goOn react n k).advance react n).waits = (w.goOn react n k).waits := by
          rw [hagain]
          exact ⟨rfl, rfl⟩
        obtain ⟨j, hmore, hnone⟩ := ih ((w.goOn react n k).advance react n) (by rw [hagain])
        rw [hsame.1] at hmore
        rw [hsame.2, hwaits] at hnone
        refine ⟨k + (j + 1), ?_, ?_⟩ <;> rw [goOn_add, goOn_succ]
        · exact hmore
        · rw [Nat.add_comm polls 1, ← Nat.add_assoc]
          exact hnone

/-- The running loop, from its start. -/
theorem follows_start (react : Reaction α → Turn ρ (Reaction β)) (n : Nat) (w : Worker ρ α β)
    (polls : Nat) (hw : w.phase = .idle) : ∃ k,
    (Turn.start (Turn.logged react) n polls).run w.state
        = (((w.act react n .start).goOn react n k).result?,
          ((w.act react n .start).goOn react n k).state) ∧
      (((w.act react n .start).goOn react n k).result? = none →
        ((w.act react n .start).goOn react n k).phase = .stuck .start ∨
        (((w.act react n .start).goOn react n k).phase = .ready .start ∧
          ((w.act react n .start).goOn react n k).waits = w.waits + polls)) := by
  have hbegin : w.act react n .start
      = ⟨w.root, { w.loop with system := { w.loop.system with stopping := false } }.note .started,
        .ready .start, w.log ++ [.begun .start]⟩ := by
    simp only [act, begin, hw]
  have hwaits : (w.act react n .start).waits = w.waits := by
    simp [hbegin, waits, Sighting.isWait]
  obtain ⟨k, hk, hnone⟩ := follows_keepPolling react n polls (w.act react n .start)
    (by rw [hbegin])
  rw [hwaits] at hnone
  refine ⟨k, ?_, hnone⟩
  have hstate : (w.act react n .start).state = (w.state.1,
      { w.loop with system := { w.loop.system with stopping := false } }.note .started) := by
    simp [hbegin, state, calls, Sighting.calls]
  rw [hstate] at hk
  exact hk

/-! ### Enough polls -/

/-- A worker that has come to rest stays as it is. -/
theorem goOn_of_still (hw : w.advance react n = w) (k : Nat) : w.goOn react n k = w := by
  induction k with
  | zero => rfl
  | succ k ih => rw [goOn_succ, hw, ih]

/-- Nothing that was seen is forgotten. -/
theorem log_prefix_advance (react : Reaction α → Turn ρ (Reaction β)) (n : Nat)
    (w : Worker ρ α β) : w.log <+: (w.advance react n).log := by
  -- the log is only ever added to
  have hawait : ∀ c, w.log <+: (w.await c).log := by
    intro c
    unfold await
    split <;> exact List.prefix_append _ _
  unfold advance
  split
  · exact List.prefix_rfl
  · split
    · exact List.prefix_append _ _
    · exact hawait _
  · exact hawait _
  · exact List.prefix_append _ _
  · exact List.prefix_rfl
  · exact List.prefix_append _ _
  · exact List.prefix_rfl

/-- The number of waits never goes down. -/
theorem waits_le_goOn (react : Reaction α → Turn ρ (Reaction β)) (n k : Nat) :
    ∀ w : Worker ρ α β, w.waits ≤ (w.goOn react n k).waits := by
  induction k with
  | zero => exact fun w => Nat.le_refl _
  | succ k ih =>
    intro w
    have hfirst : w.waits ≤ (w.advance react n).waits :=
      (log_prefix_advance react n w).sublist.countP_le
    exact hfirst.trans (ih _)

/-- A worker with a result has nothing more to do. -/
theorem still_of_result? (react : Reaction α → Turn ρ (Reaction β)) (n : Nat)
    {res : Except Failure Unit} (hw : w.result? = some res) : w.advance react n = w := by
  unfold result? at hw
  unfold advance
  split at hw
  next hidle => rw [hidle]
  next => cases hw

/-- **Once a worker has come back, so has every loop that may wait more often than the worker
did**, and with the same result. -/
theorem start_eq_of_result? (react : Reaction α → Turn ρ (Reaction β)) (n : Nat)
    (hw : w.phase = .idle) {k : Nat} {res : Except Failure Unit}
    (hres : ((w.act react n .start).goOn react n k).result? = some res) {polls : Nat}
    (hpolls : ((w.act react n .start).goOn react n k).waits < w.waits + polls) :
    (Turn.start (Turn.logged react) n polls).run w.state
      = (some res, ((w.act react n .start).goOn react n k).state) := by
  obtain ⟨j, hrun, hnone⟩ := follows_start react n w polls hw
  have hstill := still_of_result? react n hres
  generalize w.act react n .start = v at *
  -- the loop is where the worker is at some step, and both of them are at rest there
  have hsame : v.goOn react n j = v.goOn react n k := by
    rcases Nat.le_total k j with hle | hle
    · obtain ⟨d, rfl⟩ := Nat.exists_eq_add_of_le hle
      rw [goOn_add, goOn_of_still hstill]
    · obtain ⟨d, rfl⟩ := Nat.exists_eq_add_of_le hle
      rw [goOn_add] at hpolls ⊢
      cases hj : (v.goOn react n j).result? with
      | some res' => rw [goOn_of_still (still_of_result? react n hj)]
      | none =>
        rcases hnone hj with hstuck | ⟨-, hwaits⟩
        · refine (goOn_of_still ?_ d).symm
          unfold advance
          rw [hstuck]
        · have hmono := waits_le_goOn react n d (v.goOn react n j)
          omega
  rw [hrun, hsame, hres]

end Worker
end EventLoop

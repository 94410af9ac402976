import EventLoop.Net.Listener
import EventLoop.Proofs.Host.Backlog
import EventLoop.Proofs.Host.Streams
import EventLoop.Proofs.System.Dispatch
import EventLoop.Proofs.Tree.Composition
import EventLoop.System.Root

/-!
# Connections that come in

A listener with a function behind it is the root of a loop.  Connections arrive and
wait, some accepts fail, and events of all kinds are dispatched to the root, in any
order.  What happens is written down: which connections have arrived, which were
accepted, which accepts failed, and what the function was called with.  Nothing is
lost and nothing comes twice.

## Main definitions

* `Host.waiting` — the connections that wait at a descriptor, oldest first.
* `Porter.root` — a listener with a function behind it, as a tree.
* `Evented.welcome` — its turn, for any way to accept and any way to call the function.
* `Gate` — the root with what was written down; `Gate.turn` is its turn.
* `Rush` — connection after connection is accepted, until one accept fails.
* `Gate.Reachable` — the states that come about.

## Main results

* `Gate.simulates_turn` — to write things down changes nothing else.
* `Gate.Visits`, `Gate.visits_turn` — **what one turn does.**
* `Gate.rush_dispatch` — a dispatch of an own event accepts until an accept fails.
* `Gate.Reachable.admission_spec` — **the function is called once for every connection that was
  accepted, in the order in which they came.**
-/

namespace EventLoop

/-! ### Connections that wait -/

namespace Host

variable {h h' : Host} {fd : Option Nat}

/-- The connections that wait at a descriptor, oldest first. -/
def waiting (h : Host) (fd : Option Nat) : List Nat :=
  match h.objectOf? fd with
  | some (.listener _ backlog) => backlog
  | _ => []

theorem waiting_of_object? {n : Nat} {bound : Binding} {backlog : List Nat}
    (ho : h.object? n = some (.listener bound backlog)) : h.waiting (some n) = backlog := by
  rw [waiting, objectOf?_some, ho]

/-- What multiplexers watch is none of their business. -/
theorem Rewatches.waiting_eq (hr : h.Rewatches h') (fd : Option Nat) :
    h'.waiting fd = h.waiting fd := by
  cases fd with
  | none => rfl
  | some fd =>
    unfold waiting
    rw [objectOf?_some, objectOf?_some]
    rcases hr.object? fd with heq | ⟨watches, watches', ho, ho'⟩
    · rw [heq]
    · rw [ho, ho']

/-- **Accepting takes the connection that has waited longest**, and the new descriptor is its
end. -/
theorem accept_takes {listener : Option Nat} {client : Nat} {peer : String}
    (ha : h.accept listener = .ok ((client, peer), h')) :
    ∃ number, h.waiting listener = number :: h'.waiting listener ∧
      h'.streamOf (some client) = .ok number := by
  obtain ⟨fd, bound, number, rest, rfl, ho, halloc, -⟩ := accept_eq_ok ha
  obtain ⟨hleft, hnew⟩ := object?_accept ho halloc
  refine ⟨number, ?_, ?_⟩
  · rw [waiting_of_object? ho, waiting_of_object? hleft]
  · rw [streamOf_eq_ok_iff]
    exact hnew

/-- An accept that would have to wait finds nobody waiting. -/
theorem waiting_of_accept_wouldBlock {listener : Option Nat} {e : Errno}
    (ha : h.accept listener = .error e) (he : e.isWouldBlock = true) :
    h.waiting listener = [] := by
  cases listener with
  | none => rfl
  | some fd =>
    unfold accept at ha
    unfold waiting
    cases ho : h.objectOf? (some fd) with
    | none => rfl
    | some o =>
      rw [ho] at ha
      dsimp only at ha
      split at ha
      · cases ha
        cases he
      · cases o with
        | listener bound backlog =>
          cases backlog with
          | nil => rfl
          | cons number rest =>
            dsimp only at ha
            cases halloc : (h.setObject fd (.listener bound rest)).allocate (.stream number) with
            | ok r =>
              rw [halloc] at ha
              cases ha
            | error e' =>
              rw [halloc] at ha
              cases ha
              -- it could only be refused for want of a number
              unfold allocate at halloc
              split at halloc
              · cases halloc
              · cases halloc
                cases he
        | _ => rfl

/-- As long as somebody waits the descriptor is readable. -/
theorem meets_readiness_of_waiting (hw : h.waiting fd ≠ []) :
    (h.readiness fd).meets .input = true := by
  unfold waiting at hw
  unfold readiness
  cases ho : h.objectOf? fd with
  | none =>
    rw [ho] at hw
    exact absurd rfl hw
  | some o =>
    rw [ho] at hw
    cases o with
    | listener bound backlog =>
      cases backlog with
      | nil => exact absurd rfl hw
      | cons number rest =>
        show (Mask.input.when true).meets .input = true
        decide
    | _ => exact absurd rfl hw

end Host

variable {σ τ τ₁ τ₂ β : Type} {q : Payload}

/-! ### The root -/

/-- A leaf that is a listener. -/
inductive Porter : Payload → Payload → Type
  /-- The listener. -/
  | listener (e : Evented Listener) : Porter .unit .connection

namespace Porter

/-- One turn. -/
def react {p r : Payload} (l : Porter p r) (input : Reaction p.Val) :
    StateM (σ × Loop) (Reaction r.Val × Porter p r) := fun w =>
  match l, input with
  | .listener e, input =>
    (((e.listen input w.2).1, .listener (e.listen input w.2).2.1), (w.1, (e.listen input w.2).2.2))

/-- A listener with a function behind it, as a tree. -/
def tree (f : Effect (σ × Loop) .connection q) (e : Evented Listener) :
    Tree Porter (Effect (σ × Loop)) .unit q :=
  .map (.leaf (.listener e)) f

/-- One turn of such a tree as the root of a loop. -/
def root : Reaction Unit → Turn (Tree Porter (Effect (σ × Loop)) .unit q × σ) (Reaction q.Val) :=
  Turn.ofTree (p := .unit) (Effect.behaviour react) Prod.mk id

end Porter

namespace Evented

/-- Accepts a connection and calls the function with it, if the latch is set; given how to accept
and how to call the function. -/
def attempt (accept : Listener → τ × Loop → Except Failure Connection × τ × Loop)
    (call : Connection → τ × Loop → β × τ × Loop) (e : Evented Listener) (w : τ × Loop) :
    Reaction β × Evented Listener × τ × Loop :=
  if e.readable then
    match accept e.inner w with
    | (.ok c, w) => (.value (call c w).1, e, (call c w).2)
    | (.error _, w) => (.idle, e.clearReadable, w)
  else (.idle, e, w)

/-- One turn of a listener with a function behind it. -/
def welcome (accept : Listener → τ × Loop → Except Failure Connection × τ × Loop)
    (call : Connection → τ × Loop → β × τ × Loop) (e : Evented Listener) (input : Reaction Unit)
    (w : τ × Loop) : Reaction β × Evented Listener × τ × Loop :=
  match input with
  | .value _ => (.idle, e, w)
  | .idle => e.attempt accept call w
  | .event event =>
    match e.accept event w.2 with
    | (false, e, l) => (.event event, e, (w.1, l))
    | (true, e, l) => e.attempt accept call (w.1, l)

section

variable {accept : Listener → τ × Loop → Except Failure Connection × τ × Loop}
  {call : Connection → τ × Loop → β × τ × Loop} {e e' : Evented Listener} {w : τ × Loop}
  {event : Event} {l : Loop}

/-- Nothing is attempted while the latch is clear. -/
theorem attempt_of_clear (hlatch : e.readable = false) (w : τ × Loop) :
    e.attempt accept call w = (.idle, e, w) := by
  unfold attempt
  rw [hlatch]
  rfl

/-- An event of somebody else is passed on. -/
theorem welcome_of_foreign (hr : e.accept event w.2 = (false, e', l)) :
    e.welcome accept call (.event event) w = (.event event, e', (w.1, l)) := by
  unfold welcome
  dsimp only
  rw [hr]

/-- After an event of its own it goes on as without input. -/
theorem welcome_of_own (hr : e.accept event w.2 = (true, e', l)) :
    e.welcome accept call (.event event) w = e'.attempt accept call (w.1, l) := by
  unfold welcome
  dsimp only
  rw [hr]

end

/-- To accept as the listener does. -/
def acceptOne (s : Listener) (w : τ × Loop) : Except Failure Connection × τ × Loop :=
  ((s.accept w.2.host).1, (w.1, { w.2 with host := (s.accept w.2.host).2 }))

/-- What the function makes of the outcome of a turn. -/
def andThen (call : Connection → τ × Loop → β × τ × Loop) (r : τ) :
    Reaction Connection × Evented Listener × Loop → Reaction β × Evented Listener × τ × Loop
  | (.value c, e, l) => (.value (call c (r, l)).1, e, (call c (r, l)).2)
  | (out, e, l) => (out.pass, e, (r, l))

/-- A listener takes its own turn, and then the function is called. -/
theorem welcome_acceptOne (call : Connection → τ × Loop → β × τ × Loop) (e : Evented Listener)
    (input : Reaction Unit) (r : τ) (l : Loop) :
    e.welcome acceptOne call input (r, l) = andThen call r (e.listen input l) := by
  -- with the latch clear nothing is asked for, on both sides
  have hidle : ∀ (e : Evented Listener) (l : Loop),
      e.attempt acceptOne call (r, l) = andThen call r (e.listen .idle l) := by
    intro e l
    unfold attempt acceptOne listen
    dsimp only
    cases e.readable with
    | false => rfl
    | true =>
      rcases e.inner.accept l.host with ⟨c, h⟩
      cases c <;> rfl
  cases input with
  | value _ => rfl
  | idle => exact hidle e l
  | event event =>
    unfold welcome
    dsimp only
    rcases hr : e.accept event l with ⟨own, e', l'⟩
    cases own with
    | false =>
      rw [listen_of_foreign hr]
      rfl
    | true =>
      rw [listen_of_own hr]
      exact hidle e' l'

/-- The turn of the root is this turn, with the listener's own way to accept. -/
theorem run_root (f : Effect (σ × Loop) .connection q) (e : Evented Listener)
    (input : Reaction Unit) (r : σ) (l : Loop) :
    (Porter.root input).run ((Porter.tree f e, r), l)
      = ((e.welcome acceptOne (fun c => (f c).run) input (r, l)).1,
        ((Porter.tree f (e.welcome acceptOne (fun c => (f c).run) input (r, l)).2.1,
          (e.welcome acceptOne (fun c => (f c).run) input (r, l)).2.2.1),
          (e.welcome acceptOne (fun c => (f c).run) input (r, l)).2.2.2)) := by
  have hleaf : ((Tree.leaf (.listener e)).react (Effect.behaviour Porter.react)
      (F := Effect (σ × Loop)) (p := .unit) input).run (r, l)
      = (((e.listen input l).1, .leaf (.listener (e.listen input l).2.1)),
        (r, (e.listen input l).2.2)) := rfl
  rw [welcome_acceptOne]
  rcases hr : e.listen input l with ⟨out, e', l'⟩
  rw [hr] at hleaf
  -- a connection meets the function, anything else passes by it
  cases out with
  | value c =>
    exact Turn.run_ofTree id (Tree.run_react_mapped hleaf (f := f) rfl)
  | idle => exact Turn.run_ofTree id (Tree.run_react_unmapped hleaf rfl f)
  | event event => exact Turn.run_ofTree id (Tree.run_react_unmapped hleaf rfl f)

/-- What accepting and calling have in common, the turns have in common. -/
theorem welcome_map {accept₁ : Listener → τ₁ × Loop → Except Failure Connection × τ₁ × Loop}
    {accept₂ : Listener → τ₂ × Loop → Except Failure Connection × τ₂ × Loop}
    {call₁ : Connection → τ₁ × Loop → β × τ₁ × Loop}
    {call₂ : Connection → τ₂ × Loop → β × τ₂ × Loop} (ψ : τ₁ → τ₂)
    (haccept : ∀ s w, accept₂ s (ψ w.1, w.2)
      = ((accept₁ s w).1, (ψ (accept₁ s w).2.1, (accept₁ s w).2.2)))
    (hcall : ∀ c w, call₂ c (ψ w.1, w.2) = ((call₁ c w).1, (ψ (call₁ c w).2.1, (call₁ c w).2.2)))
    (e : Evented Listener) (input : Reaction Unit) (w : τ₁ × Loop) :
    e.welcome accept₂ call₂ input (ψ w.1, w.2)
      = ((e.welcome accept₁ call₁ input w).1, (e.welcome accept₁ call₁ input w).2.1,
        (ψ (e.welcome accept₁ call₁ input w).2.2.1, (e.welcome accept₁ call₁ input w).2.2.2)) := by
  -- the two attempts ask the same socket and differ in what they carry along
  have hattempt : ∀ (e : Evented Listener) (w : τ₁ × Loop), e.attempt accept₂ call₂ (ψ w.1, w.2)
      = ((e.attempt accept₁ call₁ w).1, (e.attempt accept₁ call₁ w).2.1,
        (ψ (e.attempt accept₁ call₁ w).2.2.1, (e.attempt accept₁ call₁ w).2.2.2)) := by
    intro e w
    unfold attempt
    rw [haccept]
    cases e.readable with
    | false => rfl
    | true =>
      rcases accept₁ e.inner w with ⟨c, w'⟩
      cases c with
      | ok c =>
        dsimp only
        rw [hcall]
        rfl
      | error f => rfl
  cases input with
  | value _ => rfl
  | idle => exact hattempt e w
  | event event =>
    unfold welcome
    dsimp only
    rcases e.accept event w.2 with ⟨own, e', l'⟩
    cases own with
    | false => rfl
    | true => exact hattempt e' (w.1, l')

end Evented

/-- An event of its own that reports bytes or closure sets the latch, and no event clears it. -/
theorem Evented.readable_accept {ι : Type} (e : Evented ι) (event : Event) (l : Loop) :
    (e.accept event l).2.1.readable
      = (e.readable || e.owns event && (event.ready.isReadable || event.ready.isClosed)) := by
  unfold accept
  split
  next howns =>
    dsimp only
    split
    · rw [disarm_fst, howns, Bool.true_and, Bool.or_assoc]
    · rw [howns, Bool.true_and, Bool.or_assoc]
  next howns => rw [Bool.eq_false_iff.mpr howns, Bool.false_and, Bool.or_false]

/-! ### What is written down -/

/-- What is worth writing down. -/
inductive Line
  /-- A connection has arrived. -/
  | arrived (number : Nat)
  /-- A connection was accepted; the number is that of the end behind it. -/
  | accepted (number : Option Nat) (c : Connection)
  /-- An accept has failed. -/
  | failed (f : Failure)
  /-- The function was called. -/
  | called (c : Connection)

namespace Line

/-- The connection that has arrived. -/
def arrival? : Line → Option Nat
  | .arrived number => some number
  | _ => none

/-- The connection that was accepted, with its end. -/
def admission? : Line → Option (Option Nat × Connection)
  | .accepted number c => some (number, c)
  | _ => none

/-- What the function was called with. -/
def call? : Line → Option Connection
  | .called c => some c
  | _ => none

end Line

/-- A listener with a function behind it, and what was written down. -/
structure Gate (σ : Type) where
  /-- The listener. -/
  listener : Evented Listener
  /-- Whatever else there is. -/
  rest : σ
  /-- What was written down. -/
  log : List Line

namespace Gate

/-- The connections that have arrived, in the order in which they came. -/
def arrivals (log : List Line) : List Nat := log.filterMap Line.arrival?

/-- The connections that were accepted, with their ends. -/
def admissions (log : List Line) : List (Option Nat × Connection) := log.filterMap Line.admission?

/-- What the function was called with. -/
def calls (log : List Line) : List Connection := log.filterMap Line.call?

/-- To accept, and to write down what came of it. -/
def acceptOne (s : Listener) (w : (σ × List Line) × Loop) :
    Except Failure Connection × (σ × List Line) × Loop :=
  match s.accept w.2.host with
  | (.ok c, h) =>
    (.ok c, ((w.1.1, w.1.2 ++ [.accepted (h.streamOf c.socket.descriptor).toOption c]),
      { w.2 with host := h }))
  | (.error f, h) => (.error f, ((w.1.1, w.1.2 ++ [.failed f]), { w.2 with host := h }))

/-- To call the function, and to write it down, with the connections that have arrived at the
descriptor in the meantime. -/
def call (f : Effect (σ × Loop) .connection q) (fd : Option Nat) (c : Connection)
    (w : (σ × List Line) × Loop) : q.Val × (σ × List Line) × Loop :=
  let (v, r, l) := (f c).run (w.1.1, w.2)
  let new := (l.host.waiting fd).drop (w.2.host.waiting fd).length
  (v, ((r, w.1.2 ++ .called c :: new.map .arrived), l))

/-- One turn of the root, in which everything is written down. -/
def turn (f : Effect (σ × Loop) .connection q) (input : Reaction Unit) :
    Turn (Gate σ) (Reaction q.Val) := fun x =>
  let (out, e, w) := x.1.listener.welcome acceptOne (call f x.1.listener.inner.descriptor) input
    ((x.1.rest, x.1.log), x.2)
  (out, (⟨e, w.1.1, w.1.2⟩, w.2))

/-- The root without what was written down. -/
def plain (f : Effect (σ × Loop) .connection q) (g : Gate σ) :
    Tree Porter (Effect (σ × Loop)) .unit q × σ := (Porter.tree f g.listener, g.rest)

/-- **To write things down changes nothing else.** -/
theorem simulates_turn (f : Effect (σ × Loop) .connection q) :
    Turn.Simulates (turn f) Porter.root (plain f) id := by
  intro input _ g l
  -- the log is written beside the run and read by nobody
  have haccept : ∀ s (w : (σ × List Line) × Loop), Evented.acceptOne s (w.1.1, w.2)
      = ((acceptOne s w).1, ((acceptOne s w).2.1.1, (acceptOne s w).2.2)) := by
    intro s w
    unfold acceptOne Evented.acceptOne
    rcases s.accept w.2.host with ⟨r, h⟩
    cases r <;> rfl
  have hcall : ∀ c (w : (σ × List Line) × Loop), (f c).run (w.1.1, w.2)
      = ((call f g.listener.inner.descriptor c w).1,
        ((call f g.listener.inner.descriptor c w).2.1.1,
          (call f g.listener.inner.descriptor c w).2.2)) := fun _ _ => rfl
  have hmap := Evented.welcome_map Prod.fst haccept hcall g.listener input ((g.rest, g.log), l)
  rw [plain, Evented.run_root, hmap, Reaction.map_id]
  rfl

/-! ### One turn -/

/-- After this input the latch is set, and it is the listener's turn: it looks for a connection. -/
def looks (e : Evented Listener) : Reaction Unit → Bool
  | .value _ => false
  | .idle => e.readable
  | .event event => e.owns event && (e.readable || event.ready.isReadable || event.ready.isClosed)

theorem looks_event (e : Evented Listener) (event : Event) : looks e (.event event)
    = (e.owns event && (e.readable || event.ready.isReadable || event.ready.isClosed)) := rfl

/-- A function that is called with a connection takes nobody away from those who wait at a
descriptor, and lets nobody go before them. -/
def Polite (f : Effect (σ × Loop) .connection q) (fd : Option Nat) : Prop :=
  ∀ c r l n, l.host.streamOf c.socket.descriptor = .ok n →
    ∃ new, ((f c).run (r, l)).2.2.host.waiting fd = l.host.waiting fd ++ new

/-- What an attempt to accept leads to.  Either the connection that has waited longest is accepted
and the function is called with it; or nobody is, and the latch is cleared. -/
inductive Visits (fd : Option Nat) (log : List Line) (h : Host) :
    Reaction β → Evented Listener → List Line → Host → Prop
  | admits {number : Nat} {rest new : List Nat} {c : Connection} {v : β} {e : Evented Listener}
      {log' : List Line} {h' : Host} (hwaiting : h.waiting fd = number :: rest)
      (hlatch : e.readable = true)
      (hlog : log' = log ++ .accepted (some number) c :: .called c :: new.map .arrived)
      (hleft : h'.waiting fd = rest ++ new) : Visits fd log h (.value v) e log' h'
  | fails {failure : Failure} {e : Evented Listener} {log' : List Line} {h' : Host}
      (hlatch : e.readable = false) (hlog : log' = log ++ [.failed failure])
      (hsame : h'.waiting fd = h.waiting fd)
      (hnobody : failure.isWouldBlock = true → h.waiting fd = []) : Visits fd log h .idle e log' h'

/-- Only who waits matters. -/
theorem Visits.of_waiting {fd : Option Nat} {log log' : List Line} {h₀ h h' : Host}
    {out : Reaction β} {e : Evented Listener} (hv : Visits fd log h out e log' h')
    (heq : h.waiting fd = h₀.waiting fd) : Visits fd log h₀ out e log' h' := by
  cases hv with
  | admits hwaiting hlatch hlog hleft => exact .admits (heq ▸ hwaiting) hlatch hlog hleft
  | fails hlatch hlog hsame hnobody =>
    exact .fails hlatch hlog (hsame.trans heq) fun hwait => heq ▸ hnobody hwait

variable {f : Effect (σ × Loop) .connection q} {fd : Option Nat}

/-- What is written down about a call. -/
theorem call_spec (hf : Polite f fd) {c : Connection} {w : (σ × List Line) × Loop} {n : Nat}
    (hc : w.2.host.streamOf c.socket.descriptor = .ok n) :
    ∃ new, (call f fd c w).2.1.2 = w.1.2 ++ .called c :: new.map .arrived ∧
      (call f fd c w).2.2.host.waiting fd = w.2.host.waiting fd ++ new := by
  obtain ⟨new, hnew⟩ := hf c w.1.1 w.2 n hc
  refine ⟨new, ?_, hnew⟩
  show w.1.2 ++ .called c :: (List.drop _ (((f c).run (w.1.1, w.2)).2.2.host.waiting fd)).map _ = _
  rw [hnew, List.drop_left]

theorem visits_attempt (hf : Polite f fd) {e e' : Evented Listener} {w w' : (σ × List Line) × Loop}
    {out : Reaction q.Val} (hd : e.inner.descriptor = fd) (hlatch : e.readable = true)
    (h : e.attempt acceptOne (call f fd) w = (out, e', w')) :
    e'.inner = e.inner ∧ Visits fd w.1.2 w.2.host out e' w'.1.2 w'.2.host := by
  unfold Evented.attempt acceptOne at h
  rw [if_pos hlatch, Listener.accept_eq, hd] at h
  cases ha : w.2.host.calm.accept fd with
  | error errno =>
    rw [ha] at h
    cases h
    refine ⟨rfl, .fails rfl rfl rfl fun hwait => ?_⟩
    exact Host.waiting_of_accept_wouldBlock (h := w.2.host.calm) ha hwait
  -- the connection is accepted, looked at and handed to the function, in that order
  | ok r =>
    obtain ⟨⟨client, peer⟩, host⟩ := r
    rw [ha] at h
    obtain ⟨number, hwaiting, hstream⟩ := Host.accept_takes ha
    dsimp only at h
    rw [hstream] at h
    cases h
    obtain ⟨new, hlog, hleft⟩ := call_spec hf (c := ⟨⟨e.inner.family, some client⟩, peer⟩)
      (w := ((w.1.1, w.1.2 ++ [.accepted (some number) ⟨⟨e.inner.family, some client⟩, peer⟩]),
        { w.2 with host := host })) hstream
    exact ⟨rfl, .admits hwaiting hlatch (hlog.trans (List.append_assoc _ _ _)) hleft⟩

/-- A turn in which nobody looks for a connection. -/
structure Rests (fd : Option Nat) (x : Gate σ × Loop) (out : Reaction β) (y : Gate σ × Loop) :
    Prop where
  isValue_eq : out.isValue = false
  log_eq : y.1.log = x.1.log
  readable_eq : y.1.listener.readable = x.1.listener.readable
  waiting_eq : y.2.host.waiting fd = x.2.host.waiting fd

/-- **What one turn does.**  The listener looks for a connection if the latch is set once it has
heard of an event of its own, and otherwise nothing happens. -/
theorem turn_spec (hf : Polite f fd) {x y : Gate σ × Loop} {input : Reaction Unit}
    {out : Reaction q.Val} (hd : x.1.listener.inner.descriptor = fd)
    (h : (turn f input).run x = (out, y)) : y.1.listener.inner = x.1.listener.inner ∧
      (looks x.1.listener input = true ∧
          Visits fd x.1.log x.2.host out y.1.listener y.1.log y.2.host ∨
        looks x.1.listener input = false ∧ Rests fd x out y) := by
  obtain ⟨⟨e, r, log⟩, l⟩ := x
  have hturn : (turn f input).run (⟨e, r, log⟩, l) = ((e.welcome acceptOne (call f fd) input
      ((r, log), l)).1, (⟨(e.welcome acceptOne (call f fd) input ((r, log), l)).2.1,
        (e.welcome acceptOne (call f fd) input ((r, log), l)).2.2.1.1,
        (e.welcome acceptOne (call f fd) input ((r, log), l)).2.2.1.2⟩,
        (e.welcome acceptOne (call f fd) input ((r, log), l)).2.2.2)) := by rw [← hd]; rfl
  rw [hturn] at h
  cases h
  cases input with
  | value _ => exact ⟨rfl, .inr ⟨rfl, rfl, rfl, rfl, rfl⟩⟩
  | idle =>
    cases hlatch : e.readable with
    | false =>
      have hrest : e.welcome acceptOne (call f fd) .idle ((r, log), l) = (.idle, e, ((r, log), l)) :=
        Evented.attempt_of_clear hlatch _
      rw [hrest]
      exact ⟨rfl, .inr ⟨hlatch, rfl, rfl, rfl, rfl⟩⟩
    | true =>
      obtain ⟨hinner, hvisits⟩ := visits_attempt (w := ((r, log), l)) hf hd hlatch rfl
      exact ⟨hinner, .inl ⟨hlatch, hvisits⟩⟩
  | event event =>
    obtain ⟨hown, hinner, -, -⟩ := e.accept_spec event l
    have hreadable := e.readable_accept event l
    have hwaiting := (e.rewatches_accept event l).waiting_eq fd
    rcases hr : e.accept event l with ⟨own, e', l'⟩
    rw [hr] at hown hinner hreadable hwaiting
    dsimp only at hown hinner hreadable hwaiting
    cases own with
    | false =>
      rw [← hown, Bool.false_and, Bool.or_false] at hreadable
      have hlooks : looks e (.event event) = false := by
        rw [looks_event, ← hown, Bool.false_and]
      rw [Evented.welcome_of_foreign (w := ((r, log), l)) hr]
      exact ⟨hinner, .inr ⟨hlooks, rfl, rfl, hreadable, hwaiting⟩⟩
    | true =>
      have hlooks : looks e (.event event) = e'.readable := by
        rw [looks_event, hreadable, ← hown, Bool.true_and, Bool.true_and, Bool.or_assoc]
      rw [Evented.welcome_of_own (w := ((r, log), l)) hr]
      cases hlatch : e'.readable with
      | false =>
        -- the latch was clear before, and the event reports neither
        have hclear : e.readable = false := by
          rw [hlatch] at hreadable
          exact (Bool.or_eq_false_iff.mp hreadable.symm).1
        rw [Evented.attempt_of_clear hlatch]
        exact ⟨hinner, .inr ⟨hlooks.trans hlatch, rfl, rfl, hlatch.trans hclear.symm, hwaiting⟩⟩
      | true =>
        obtain ⟨hsame, hvisits⟩ :=
          visits_attempt (w := ((r, log), l')) hf (by rw [hinner]; exact hd) hlatch rfl
        refine ⟨hsame.trans hinner, .inl ⟨hlooks.trans hlatch, ?_⟩⟩
        exact hvisits.of_waiting hwaiting

/-! ### Nothing is lost and nothing comes twice -/

/-- The function was called with the connections that were accepted, and these are the ones that
have arrived, up to those that still wait. -/
structure Tallies (log : List Line) (waiting : List Nat) : Prop where
  calls_eq : calls log = (admissions log).map Prod.snd
  arrivals_eq : (arrivals log).map some = (admissions log).map Prod.fst ++ waiting.map some

section

variable (log log' : List Line) (new : List Nat)

@[simp] theorem arrivals_append : arrivals (log ++ log') = arrivals log ++ arrivals log' :=
  List.filterMap_append

@[simp] theorem admissions_append : admissions (log ++ log') = admissions log ++ admissions log' :=
  List.filterMap_append

@[simp] theorem calls_append : calls (log ++ log') = calls log ++ calls log' :=
  List.filterMap_append

@[simp] theorem arrivals_arrived : arrivals (new.map .arrived) = new := by
  rw [arrivals, List.filterMap_map]
  exact List.filterMap_some

@[simp] theorem admissions_arrived : admissions (new.map .arrived) = [] := by
  rw [admissions, List.filterMap_map, List.filterMap_eq_nil_iff]
  exact fun _ _ => rfl

@[simp] theorem calls_arrived : calls (new.map .arrived) = [] := by
  rw [calls, List.filterMap_map, List.filterMap_eq_nil_iff]
  exact fun _ _ => rfl

end

namespace Tallies

variable {log : List Line} {waiting : List Nat}

theorem start (waiting : List Nat) : Tallies (waiting.map .arrived) waiting := by
  constructor <;> simp

/-- Who comes waits behind the others. -/
theorem arrive (h : Tallies log waiting) (new : List Nat) :
    Tallies (log ++ new.map .arrived) (waiting ++ new) := by
  constructor
  · simp [h.calls_eq]
  · simp [h.arrivals_eq]

/-- Who has waited longest is accepted, and the function is called. -/
theorem take {number : Nat} (h : Tallies log (number :: waiting)) (c : Connection) :
    Tallies (log ++ [.accepted (some number) c, .called c]) waiting := by
  have hadmissions : admissions [.accepted (some number) c, .called c] = [(some number, c)] := rfl
  have hcalls : calls [.accepted (some number) c, .called c] = [c] := rfl
  have harrivals : arrivals [.accepted (some number) c, .called c] = [] := rfl
  constructor
  · simp [hadmissions, hcalls, h.calls_eq]
  · simp [hadmissions, harrivals, h.arrivals_eq]

/-- An accept that fails changes nothing. -/
theorem fail (h : Tallies log waiting) (failure : Failure) :
    Tallies (log ++ [.failed failure]) waiting := by
  have hadmissions : admissions [.failed failure] = [] := rfl
  have hcalls : calls [.failed failure] = [] := rfl
  have harrivals : arrivals [.failed failure] = [] := rfl
  constructor
  · simp [hadmissions, hcalls, h.calls_eq]
  · simp [hadmissions, harrivals, h.arrivals_eq]

/-- **An attempt to accept loses nobody and lets nobody in twice.** -/
theorem visits {fd : Option Nat} {log' : List Line} {h h' : Host} {out : Reaction β}
    {e : Evented Listener} (ht : Tallies log (h.waiting fd)) (hv : Visits fd log h out e log' h') :
    Tallies log' (h'.waiting fd) := by
  cases hv with
  | @admits number rest new c _ _ _ _ hwaiting _ hlog hleft =>
    rw [hwaiting] at ht
    have htake := (ht.take c).arrive new
    rw [List.append_assoc] at htake
    rw [hlog, hleft]
    exact htake
  | fails _ hlog hsame _ =>
    rw [hlog, hsame]
    exact ht.fail _

end Tallies

/-- What holds at any time. -/
structure Sound (fd : Option Nat) (x : Gate σ × Loop) : Prop where
  descriptor_eq : x.1.listener.inner.descriptor = fd
  tallies : Tallies x.1.log (x.2.host.waiting fd)

theorem Sound.turn (hf : Polite f fd) {x : Gate σ × Loop} (hx : Sound fd x)
    (input : Reaction Unit) : Sound fd ((Gate.turn f input).run x).2 := by
  rcases hrun : (Gate.turn f input).run x with ⟨out, y⟩
  obtain ⟨hinner, hcases⟩ := turn_spec hf hx.descriptor_eq hrun
  refine ⟨?_, ?_⟩
  · rw [hinner, hx.descriptor_eq]
  · rcases hcases with ⟨-, hvisits⟩ | ⟨-, hrest⟩
    · exact hx.tallies.visits hvisits
    · rw [hrest.log_eq, hrest.waiting_eq]
      exact hx.tallies

/-! ### Whole dispatches -/

/-- Connection after connection is accepted, until an accept fails. -/
inductive Rush (failure : Failure) : List Line → Prop
  | last : Rush failure [.failed failure]
  | next (number : Nat) (c : Connection) (new : List Nat) {rest : List Line}
      (h : Rush failure rest) :
      Rush failure (.accepted (some number) c :: .called c :: new.map .arrived ++ rest)

/-- Since the log was this one there has been a rush, and now the latch is clear.  If the last
accept would have had to wait, nobody waits. -/
def Ends (fd : Option Nat) (log : List Line) (y : Gate σ × Loop) : Prop :=
  ∃ failure rush, Rush failure rush ∧ y.1.log = log ++ rush ∧ y.1.listener.readable = false ∧
    (failure.isWouldBlock = true → y.2.host.waiting fd = [])

/-- A rush ends with an accept that fails, or goes on. -/
theorem Visits.ends {log : List Line} {h : Host} {out : Reaction β} {y : Gate σ × Loop}
    (hv : Visits fd log h out y.1.listener y.1.log y.2.host) :
    (out.isValue = false ∧ Ends fd log y) ∨
      (out.isValue = true ∧ y.1.listener.readable = true ∧
        ∀ z : Gate σ × Loop, Ends fd y.1.log z → Ends fd log z) := by
  generalize hlog' : y.1.log = log' at hv
  generalize hhost : y.2.host = h' at hv
  generalize he : y.1.listener = e at hv
  cases hv with
  -- one more connection in front of those still to come
  | @admits number rest new c _ _ _ _ _ hlatch hlog _ =>
    refine .inr ⟨rfl, hlatch, fun z hz => ?_⟩
    obtain ⟨failure, rush, hrush, hz, hclear, hnobody⟩ := hz
    refine ⟨failure, _, .next number c new hrush, ?_, hclear, hnobody⟩
    rw [hz, hlog, List.append_assoc]
  | @fails failure _ _ _ hlatch hlog hsame hnobody =>
    refine .inl ⟨rfl, failure, _, .last, hlog'.trans hlog, ?_, fun hwait => ?_⟩
    · rw [he]
      exact hlatch
    · rw [hhost, hsame]
      exact hnobody hwait

/-- Turns without input go on until an accept fails. -/
theorem ends_redrive (hf : Polite f fd) (n : Nat) : ∀ x y : Gate σ × Loop,
    x.1.listener.inner.descriptor = fd → x.1.listener.readable = true →
    (Turn.redrive (turn f) n).run x = (true, y) → Ends fd x.1.log y := by
  -- on the allowance: while connections come, the latch stays set and the next turn accepts again
  induction n with
  | zero =>
    intro x y _ _ h
    cases h
  | succ n ih =>
    intro x y hd hlatch h
    rcases hrun : (turn f .idle).run (x.1, x.2.note .valueDropped) with ⟨out, z⟩
    rw [Turn.run_redrive_succ hrun] at h
    obtain ⟨hinner, ⟨-, hvisits⟩ | ⟨hlooks, -⟩⟩ :=
      turn_spec (x := (x.1, x.2.note .valueDropped)) hf hd hrun
    · rcases hvisits.ends with ⟨hout, hends⟩ | ⟨hout, hset, hnext⟩
      · rw [hout, if_neg Bool.false_ne_true] at h
        cases h
        exact hends
      · rw [hout, if_pos rfl] at h
        exact hnext y (ih z y (by rw [hinner]; exact hd) hset h)
    -- the latch is set, so this turn did look
    · cases hlatch.symm.trans hlooks

/-- **After an event that makes the listener look, a dispatch accepts until an accept fails.** -/
theorem ends_dispatch (hf : Polite f fd) {n : Nat} {event : Event} {x y : Gate σ × Loop}
    (hd : x.1.listener.inner.descriptor = fd) (hlooks : looks x.1.listener (.event event) = true)
    (h : (Turn.dispatch (turn f) n event).run x = (true, y)) : Ends fd x.1.log y := by
  rcases hrun : (turn f (.event event)).run x with ⟨out, z⟩
  rw [Turn.run_dispatch_of_run hrun] at h
  obtain ⟨hinner, ⟨-, hvisits⟩ | ⟨hnot, -⟩⟩ := turn_spec hf hd hrun
  · rcases hvisits.ends with ⟨hout, hends⟩ | ⟨hout, hset, hnext⟩
    · rw [hout, if_neg Bool.false_ne_true] at h
      cases h
      exact hends
    · rw [hout, if_pos rfl] at h
      exact hnext y (ends_redrive hf n z y (by rw [hinner]; exact hd) hset h)
  · cases hlooks.symm.trans hnot

/-- Any other event is dispatched in one turn, in which nothing happens. -/
theorem rests_dispatch (hf : Polite f fd) (n : Nat) {event : Event} {x : Gate σ × Loop}
    (hd : x.1.listener.inner.descriptor = fd)
    (hlooks : looks x.1.listener (.event event) = false) :
    ((Turn.dispatch (turn f) n event).run x).1 = true ∧
      Rests fd x ((turn f (.event event)).run x).1 ((Turn.dispatch (turn f) n event).run x).2 := by
  rcases hrun : (turn f (.event event)).run x with ⟨out, z⟩
  rw [Turn.run_dispatch_of_run hrun]
  obtain ⟨-, ⟨hnot, -⟩ | ⟨-, hrest⟩⟩ := turn_spec hf hd hrun
  · cases hlooks.symm.trans hnot
  · rw [hrest.isValue_eq, if_neg Bool.false_ne_true]
    exact ⟨rfl, hrest⟩

/-- A turn that gives a value has accepted a connection. -/
theorem Visits.length_admissions {log log' : List Line} {h h' : Host} {out : Reaction β}
    {e : Evented Listener} (hv : Visits fd log h out e log' h') (hout : out.isValue = true) :
    (admissions log').length = (admissions log).length + 1 := by
  cases hv with
  | @admits number rest new c _ _ _ _ _ _ hlog _ =>
    have hone : admissions (.accepted (some number) c :: .called c :: new.map .arrived)
        = [(some number, c)] := congrArg ((some number, c) :: ·) (admissions_arrived new)
    rw [hlog, admissions_append, hone, List.length_append]
    rfl
  | fails _ _ _ _ => cases hout

theorem length_admissions_redrive (hf : Polite f fd) (n : Nat) : ∀ x y : Gate σ × Loop,
    x.1.listener.inner.descriptor = fd → (Turn.redrive (turn f) n).run x = (false, y) →
    (admissions y.1.log).length = (admissions x.1.log).length + n := by
  -- on the allowance: if it runs out, every turn of it admitted one
  induction n with
  | zero =>
    intro x y _ h
    cases h
    rfl
  | succ n ih =>
    intro x y hd h
    rcases hrun : (turn f .idle).run (x.1, x.2.note .valueDropped) with ⟨out, z⟩
    rw [Turn.run_redrive_succ hrun] at h
    obtain ⟨hinner, hcases⟩ := turn_spec (x := (x.1, x.2.note .valueDropped)) hf hd hrun
    cases hout : out.isValue with
    | false =>
      rw [hout, if_neg Bool.false_ne_true] at h
      cases h
    | true =>
      rw [hout, if_pos rfl] at h
      have hrest := ih z y (by rw [hinner]; exact hd) h
      rcases hcases with ⟨-, hvisits⟩ | ⟨-, hnot⟩
      · have hone := hvisits.length_admissions hout
        dsimp only at hone
        omega
      · cases hout.symm.trans hnot.isValue_eq

/-- **A dispatch that has not come to an end has accepted a connection in every turn.** -/
theorem length_admissions_dispatch (hf : Polite f fd) {n : Nat} {event : Event}
    {x y : Gate σ × Loop} (hd : x.1.listener.inner.descriptor = fd)
    (h : (Turn.dispatch (turn f) n event).run x = (false, y)) :
    (admissions y.1.log).length = (admissions x.1.log).length + (n + 1) := by
  rcases hrun : (turn f (.event event)).run x with ⟨out, z⟩
  rw [Turn.run_dispatch_of_run hrun] at h
  obtain ⟨hinner, hcases⟩ := turn_spec hf hd hrun
  cases hout : out.isValue with
  | false =>
    rw [hout, if_neg Bool.false_ne_true] at h
    cases h
  | true =>
    rw [hout, if_pos rfl] at h
    have hrest := length_admissions_redrive hf n z y (by rw [hinner]; exact hd) h
    rcases hcases with ⟨-, hvisits⟩ | ⟨-, hnot⟩
    · have hone := hvisits.length_admissions hout
      omega
    · cases hout.symm.trans hnot.isValue_eq

/-! ### Runs -/

/-- The states that come about.  Turns, dispatches and whatever else happens follow each other in
any order; connections may arrive meanwhile, and nobody else takes any away. -/
inductive Reachable (f : Effect (σ × Loop) .connection q) (fd : Option Nat) : Gate σ × Loop → Prop
  /-- The connections that already wait have arrived. -/
  | start (e : Evented Listener) (r : σ) (l : Loop) (hd : e.inner.descriptor = fd) :
      Reachable f fd (⟨e, r, (l.host.waiting fd).map .arrived⟩, l)
  /-- The root has a turn. -/
  | turn {x : Gate σ × Loop} (input : Reaction Unit) (hx : Reachable f fd x) :
      Reachable f fd ((Gate.turn f input).run x).2
  /-- An event is dispatched to it. -/
  | dispatch {x : Gate σ × Loop} (n : Nat) (event : Event) (hx : Reachable f fd x) :
      Reachable f fd ((Turn.dispatch (Gate.turn f) n event).run x).2
  /-- Something else happens. -/
  | elsewhere {x : Gate σ × Loop} (r : σ) (l : Loop) (new : List Nat)
      (hnew : l.host.waiting fd = x.2.host.waiting fd ++ new) (hx : Reachable f fd x) :
      Reachable f fd (⟨x.1.listener, r, x.1.log ++ new.map .arrived⟩, l)

namespace Reachable

variable {x : Gate σ × Loop}

theorem sound (hf : Polite f fd) (hx : Reachable f fd x) : Sound fd x := by
  induction hx with
  | start e r l hd => exact ⟨hd, .start _⟩
  | turn input _ ih => exact ih.turn hf input
  | dispatch n event _ ih =>
    exact Turn.dispatch_keeps (fun _ _ _ h => ⟨h.descriptor_eq, h.tallies⟩)
      (fun input _ _ h => h.turn hf input) n event ih
  | elsewhere r l new hnew _ ih =>
    refine ⟨ih.descriptor_eq, ?_⟩
    show Tallies _ (l.host.waiting fd)
    rw [hnew]
    exact ih.tallies.arrive new

/-- **The function is called once for every connection that was accepted, in the order in which
they came**, and whoever was not accepted still waits.  An event of its own that reports bytes or
closure makes the listener accept until an accept fails, with the latch clear afterwards; if
that accept would have had to wait, everybody who came was let in.  While the latch is clear, no
other input leads to an accept.  A dispatch ends unless connections keep coming, and as long as
somebody waits the descriptor of the listener is readable.  All of this is what the tree does as
the root of a loop. -/
theorem admission_spec (hf : Polite f fd) (hx : Reachable f fd x) :
    (calls x.1.log = (admissions x.1.log).map Prod.snd ∧
      (arrivals x.1.log).map some
        = (admissions x.1.log).map Prod.fst ++ (x.2.host.waiting fd).map some) ∧
    (∀ (n : Nat) (event : Event) (y : Gate σ × Loop),
      x.1.listener.owns event = true → (event.ready.isReadable || event.ready.isClosed) = true →
      (Turn.dispatch (Gate.turn f) n event).run x = (true, y) →
      ∃ failure rush, Rush failure rush ∧ y.1.log = x.1.log ++ rush ∧
        y.1.listener.readable = false ∧
        (failure.isWouldBlock = true → (admissions y.1.log).map Prod.fst = (arrivals y.1.log).map some)) ∧
    (x.1.listener.readable = false → ∀ input : Reaction Unit,
      (∀ event, input = .event event → x.1.listener.owns event = true →
        (event.ready.isReadable || event.ready.isClosed) = false) →
      Rests fd x ((Gate.turn f input).run x).1 ((Gate.turn f input).run x).2 ∧
        ∀ event, input = .event event → ∀ n,
          ((Turn.dispatch (Gate.turn f) n event).run x).1 = true ∧
          Rests fd x ((Gate.turn f input).run x).1 ((Turn.dispatch (Gate.turn f) n event).run x).2) ∧
    (∀ (n : Nat) (event : Event),
      (arrivals ((Turn.dispatch (Gate.turn f) n event).run x).2.1.log).length ≤ n →
      ((Turn.dispatch (Gate.turn f) n event).run x).1 = true) ∧
    (x.2.host.waiting fd ≠ [] → (x.2.host.readiness fd).meets .input = true) ∧
    ∀ (n : Nat) (event : Event),
      (Turn.dispatch Porter.root n event).run (plain f x.1, x.2)
        = (((Turn.dispatch (Gate.turn f) n event).run x).1,
          (plain f ((Turn.dispatch (Gate.turn f) n event).run x).2.1,
            ((Turn.dispatch (Gate.turn f) n event).run x).2.2)) := by
  have hsound := hx.sound hf
  have hd := hsound.descriptor_eq
  refine ⟨⟨hsound.tallies.calls_eq, hsound.tallies.arrivals_eq⟩, ?_, ?_, ?_,
    Host.meets_readiness_of_waiting, ?_⟩
  · intro n event y hown hready h
    have hlooks : looks x.1.listener (.event event) = true := by
      rw [looks_event, hown, Bool.or_assoc, hready, Bool.or_true, Bool.true_and]
    obtain ⟨failure, rush, hrush, hlog, hclear, hnobody⟩ := ends_dispatch hf hd hlooks h
    refine ⟨failure, rush, hrush, hlog, hclear, fun hwait => ?_⟩
    have harrivals := ((hx.dispatch n event).sound hf).tallies.arrivals_eq
    rw [h] at harrivals
    rw [harrivals, hnobody hwait]
    exact (List.append_nil _).symm
  · intro hclear input hinput
    have hlooks : looks x.1.listener input = false := by
      cases input with
      | value _ => rfl
      | idle => exact hclear
      | event event =>
        rw [looks_event, hclear, Bool.false_or]
        cases hown : x.1.listener.owns event with
        | false => rfl
        | true => exact hinput event rfl hown
    refine ⟨?_, ?_⟩
    · obtain ⟨-, ⟨hnot, -⟩ | ⟨-, hrest⟩⟩ := turn_spec hf hd (rfl : (Gate.turn f input).run x = _)
      · cases hlooks.symm.trans hnot
      · exact hrest
    · rintro event rfl n
      exact rests_dispatch hf n hd hlooks
  · intro n event hfew
    rcases hrun : (Turn.dispatch (Gate.turn f) n event).run x with ⟨done, y⟩
    rw [hrun] at hfew
    cases done with
    | true => rfl
    | false =>
      -- more connections would have been accepted than ever came
      have hmany := length_admissions_dispatch hf hd hrun
      have harrivals := congrArg List.length ((hx.dispatch n event).sound hf).tallies.arrivals_eq
      rw [hrun, List.length_append, List.length_map, List.length_map, List.length_map] at harrivals
      dsimp only at hfew harrivals
      omega
  · intro n event
    exact (simulates_turn f).dispatch n event x.1 x.2

/-! ### A run -/

/-- Keeps every connection. -/
def keep : Effect (List Connection × Loop) .connection .unit := fun c w => ((), (w.1 ++ [c], w.2))

theorem polite_keep (fd : Option Nat) : Polite keep fd :=
  fun _ _ _ _ _ => ⟨[], (List.append_nil _).symm⟩

/-- Two connections wait at a listener, and there is one descriptor left for them. -/
def crowded : Gate (List Connection) × Loop :=
  (⟨⟨⟨.unix, some 0, ""⟩, some 7, .readable, false, false, false⟩, [],
      [.arrived 0, .arrived 2]⟩,
    ⟨{ Host.initial .silent with
        descriptors := #[some (.listener (.path "") [0, 2])]
        ends := #[.new 1 (.path ""), .new 0 (.path ""), .new 3 (.path ""), .new 2 (.path "")]
        spare := some 1 }, .absent⟩)

/-- An event is dispatched. -/
def admitted : Gate (List Connection) × Loop :=
  ((Turn.dispatch (Gate.turn keep) 9 ⟨7, .ofFlags true false false⟩).run crowded).2

/-- Later there are descriptors again. -/
def reopened : Gate (List Connection) × Loop :=
  (admitted.1, { admitted.2 with host := { admitted.2.host with spare := none } })

theorem reopened_reachable : Reachable keep (some 0) reopened := by
  have hstart : Reachable keep (some 0) crowded := .start crowded.1.listener [] crowded.2 rfl
  have hadmitted : Reachable keep (some 0) admitted :=
    hstart.dispatch 9 ⟨7, .ofFlags true false false⟩
  generalize hx : admitted = x at hadmitted
  have helse := hadmitted.elsewhere x.1.rest
    { x.2 with host := { x.2.host with spare := none } } [] (List.append_nil _).symm
  rw [List.map_nil, List.append_nil] at helse
  rw [reopened, hx]
  exact helse

/-- The second connection was left waiting, and the next event lets it in. -/
theorem admission_spec_reopened : calls reopened.1.log = [⟨⟨.unix, some 1⟩, ""⟩] ∧
    reopened.2.host.waiting (some 0) = [2] ∧ ∃ y,
      (Turn.dispatch (Gate.turn keep) 9 ⟨7, .ofFlags true false false⟩).run reopened = (true, y) ∧
      y.1.rest = [⟨⟨.unix, some 1⟩, ""⟩, ⟨⟨.unix, some 2⟩, ""⟩] ∧
      y.1.listener.readable = false := by
  obtain ⟨-, hrush, -⟩ := reopened_reachable.admission_spec (polite_keep (some 0))
  have hdone : ((Turn.dispatch (Gate.turn keep) 9 ⟨7, .ofFlags true false false⟩).run reopened).1
      = true := by decide +kernel
  obtain ⟨failure, rush, -, -, hclear, -⟩ := hrush 9 ⟨7, .ofFlags true false false⟩ _
    (by decide +kernel) (by decide +kernel) (Prod.ext hdone rfl)
  exact ⟨by decide +kernel, by decide +kernel, _, Prod.ext hdone rfl, by decide +kernel, hclear⟩

end Reachable
end Gate

end EventLoop

import EventLoop.Proofs.Channel.Basic
import Mathlib.Data.Finset.Card
import Mathlib.Data.Finset.Image
import Mathlib.Logic.Equiv.Basic

/-!
# The exchange between senders and a receiver

The two sides of a channel run on different threads, and what they do to it is a
sequence of protected steps in any order.  An exchange is the channel together with
what its users hold: the places of the senders, whether the receiver is there, and
the receives that wait.

## Main definitions

* `Exchange` — a channel and its users.
* `Exchange.Act` — a protected step; `Exchange.act` takes it, and says who is told what.
* `Exchange.run` — steps one after the other, with the log of what was told.
* `Exchange.Values`, `Exchange.Users` — what the log says of the values and of the senders.
* `Exchange.Kept` — the invariant made of both.
* `Exchange.Contract` — what senders and receiver may rely on.

## Main results

* `Kept.act` — **every step keeps the invariant.**
* `run_contract` — **the contract holds after every run.**

## Rules

* A step that its user is in no position to take does nothing: a send from a place that
  holds no sender, a receive without the receiver.
* A receive that has to wait parks.  It looks again whenever it is woken, with or without
  reason; if it waits for a limited time only, it also stops when that is over.
* An assignment between senders is no step of its own: another sender may come to the
  channel between the steps it is made of.
-/

namespace EventLoop

variable {α : Type}

/-- The kind of failure a call comes back with, if it fails. -/
def failureKind? {β : Type} : Except Failure β → Option Kind
  | .ok _ => none
  | .error e => some e.kind

/-! ### Steps -/

/-- How long a receive waits for a value. -/
inductive Patience
  /-- Not at all. -/
  | hasty
  /-- Until its time is over. -/
  | limited
  /-- As long as it takes. -/
  | endless
  deriving DecidableEq, Repr

/-- A channel and its users. -/
structure Exchange (α : Type) where
  /-- What the two sides share. -/
  channel : Channel α
  /-- The host of the bell. -/
  host : Host
  /-- The places that hold a sender. -/
  handles : Finset Nat
  /-- Is the receiver there? -/
  receiver : Bool
  /-- The receives that wait, and for how long. -/
  calls : List Patience

namespace Exchange

/-- A protected step. -/
inductive Act (α : Type)
  /-- The receiver makes a sender. -/
  | issue (place : Nat)
  /-- A sender is copied to a place that holds none. -/
  | copy (source target : Nat)
  /-- Two places swap what they hold; if one of them holds nothing, the other is moved. -/
  | swap (p q : Nat)
  /-- A sender goes. -/
  | drop (place : Nat)
  /-- A value is sent. -/
  | send (place : Nat) (v : α)
  /-- A receive starts. -/
  | receive (w : Patience)
  /-- A receive that waits looks again. -/
  | wake (n : Nat)
  /-- The time of a receive that waits is over. -/
  | timeout (n : Nat)
  /-- The receiver goes. -/
  | close
  /-- Something happens on the host. -/
  | elsewhere (h : Host)

/-- What a user is told in a step. -/
inductive Answer (α : Type)
  /-- Nothing. -/
  | silence
  /-- Here is a sender. -/
  | issued
  /-- What came of a value sent. -/
  | sent (v : α) (r : Except Failure Unit)
  /-- What a receive comes back with. -/
  | received (w : Patience) (r : Except Failure α)

namespace Answer

/-- The value, if it was sent and accepted. -/
def accepted? : Answer α → Option α
  | .sent v (.ok ()) => some v
  | _ => none

/-- The value, if one was received. -/
def received? : Answer α → Option α
  | .received _ (.ok v) => some v
  | _ => none

end Answer

/-- The values that were accepted, in order. -/
def accepted (log : List (Answer α)) : List α := log.filterMap Answer.accepted?

/-- The values that were received, in order. -/
def received (log : List (Answer α)) : List α := log.filterMap Answer.received?

/-- A new channel, with its receiver and without senders. -/
def start (capacity : Capacity) (h : Host) : Exchange α :=
  let (c, h) := Channel.create capacity h
  { channel := c, host := h, handles := ∅, receiver := true, calls := [] }

/-- A value is sent. -/
def send (s : Exchange α) (v : α) : Answer α × Exchange α :=
  match s.channel.send v s.host with
  | .ok (c, h) => (.sent v (.ok ()), { s with channel := c, host := h })
  | .error e => (.sent v (.error e), s)

/-- A receive that does not wait. -/
def poll (s : Exchange α) : Answer α × Exchange α :=
  match s.channel.receive s.host with
  | .ok (v, c, h) => (.received .hasty (.ok v), { s with channel := c, host := h })
  | .error e => (.received .hasty (.error e), s)

/-- A receive that was parked stops, and leaves the other calls waiting. -/
def finish (s : Exchange α) (w : Patience) (others : List Patience) : Answer α × Exchange α :=
  match s.channel.resume s.host with
  | (r, c, h) => (.received w r, { s with channel := c, host := h, calls := others })

/-- A receive that waits if it has to. -/
def await (s : Exchange α) (w : Patience) : Answer α × Exchange α :=
  let s := { s with channel := s.channel.park }
  if s.channel.canResume then s.finish w s.calls
  else (.silence, { s with calls := s.calls ++ [w] })

/-- One step: what is told, and what is left. -/
def act (s : Exchange α) : Act α → Answer α × Exchange α
  | .issue p =>
    if s.receiver ∧ p ∉ s.handles then
      (.issued, { s with channel := s.channel.attach, handles := insert p s.handles })
    else (.silence, s)
  | .copy p q =>
    if p ∈ s.handles ∧ q ∉ s.handles then
      (.silence, { s with channel := s.channel.attach, handles := insert q s.handles })
    else (.silence, s)
  | .swap p q =>
    (.silence, { s with handles := s.handles.map (Equiv.swap p q).toEmbedding })
  | .drop p =>
    if p ∈ s.handles then
      (.silence, { s with channel := s.channel.detach, handles := s.handles.erase p })
    else (.silence, s)
  | .send p v => if p ∈ s.handles then s.send v else (.silence, s)
  | .receive w =>
    if !s.receiver then (.silence, s) else if w = .hasty then s.poll else s.await w
  | .wake n =>
    match s.calls[n]? with
    | some w =>
      if s.channel.canResume then s.finish w (s.calls.eraseIdx n) else (.silence, s)
    | none => (.silence, s)
  | .timeout n =>
    if s.calls[n]? = some .limited then s.finish .limited (s.calls.eraseIdx n) else (.silence, s)
  | .close => (.silence, { s with channel := s.channel.abandon, receiver := false })
  | .elsewhere h => (.silence, { s with host := h })

/-- Steps one after the other, with the log of what was told. -/
def run (s : Exchange α) : List (Act α) → List (Answer α) × Exchange α
  | [] => ([], s)
  | a :: acts => ((s.act a).1 :: ((s.act a).2.run acts).1, ((s.act a).2.run acts).2)

/-! ### The invariant -/

variable {capacity : Capacity} {log : List (Answer α)} {c c' : Channel α} {a : Answer α}
  {receiver : Bool} {handles : Finset Nat} {s : Exchange α}

/-- The queue of a channel agrees with what was told of its values. -/
structure Values (capacity : Capacity) (log : List (Answer α)) (receiver : Bool)
    (c : Channel α) : Prop where
  capacity_eq : c.capacity = capacity
  hasReceiver_eq : c.hasReceiver = receiver
  conserved : receiver = true → accepted log = received log ++ c.queue
  cleared : receiver = false → c.queue = []
  bounded : ∀ n, 1 ≤ n → capacity = .bounded n → c.queue.length ≤ n

/-- The count of senders agrees with the places that hold one, and with what was told of
senders. -/
structure Users (log : List (Answer α)) (handles : Finset Nat) (c : Channel α) : Prop where
  senders_eq : c.senders = handles.card
  hadSenders_iff : c.hadSenders = true ↔ .issued ∈ log
  issued : handles.Nonempty → .issued ∈ log

/-- The channel agrees with its users, and with what they were told. -/
structure Kept (capacity : Capacity) (log : List (Answer α)) (s : Exchange α) : Prop where
  values : Values capacity log s.receiver s.channel
  users : Users log s.handles s.channel
  parked_eq : s.channel.parked = s.calls.length

@[simp] theorem accepted_concat (log : List (Answer α)) (a : Answer α) :
    accepted (log ++ [a]) = accepted log ++ a.accepted?.toList := by
  cases h : a.accepted? <;> simp [accepted, h]

@[simp] theorem received_concat (log : List (Answer α)) (a : Answer α) :
    received (log ++ [a]) = received log ++ a.received?.toList := by
  cases h : a.received? <;> simp [received, h]

namespace Values

variable (hs : Values capacity log receiver c)

include hs

/-- No value goes in or out. -/
theorem congr (hcap : c'.capacity = c.capacity) (hrec : c'.hasReceiver = c.hasReceiver)
    (hq : c'.queue = c.queue) (ha : a.accepted? = none) (hr : a.received? = none) :
    Values capacity (log ++ [a]) receiver c' where
  capacity_eq := hcap.trans hs.capacity_eq
  hasReceiver_eq := hrec.trans hs.hasReceiver_eq
  conserved hl := by simpa [ha, hr, hq] using hs.conserved hl
  cleared hl := hq.trans (hs.cleared hl)
  bounded n hn hc := hq ▸ hs.bounded n hn hc

theorem parked (n : Nat) : Values capacity log receiver { c with parked := n } :=
  ⟨hs.capacity_eq, hs.hasReceiver_eq, hs.conserved, hs.cleared, hs.bounded⟩

theorem send {v : α} {h h' : Host} (hsend : c.send v h = .ok (c', h')) :
    Values capacity (log ++ [.sent v (.ok ())]) receiver c' := by
  obtain ⟨hrec, hfull, rfl⟩ := Channel.send_ok hsend
  have hlive : receiver = true := hs.hasReceiver_eq ▸ hrec
  refine ⟨hs.capacity_eq, hs.hasReceiver_eq, fun _ => ?_, fun hdead => ?_, fun n hn hc => ?_⟩
  · simp [Answer.accepted?, Answer.received?, hs.conserved hlive]
  · cases hlive.symm.trans hdead
  · -- a bounded queue that is not full has room for one more
    rw [Channel.isFull_bounded (hs.capacity_eq.trans hc) hn, decide_eq_false_iff_not] at hfull
    simp only [List.length_append, List.length_singleton]
    omega

theorem take {r : Except Failure α} (ht : c.Takes r c') (w : Patience) :
    Values capacity (log ++ [.received w r]) receiver c' := by
  cases ht with
  | nothing hq => exact hs.congr rfl rfl rfl rfl rfl
  | @value v rest hq =>
    refine ⟨hs.capacity_eq, hs.hasReceiver_eq, fun hlive => ?_, fun hdead => ?_,
      fun n hn hc => ?_⟩
    · simp [Answer.accepted?, Answer.received?, hs.conserved hlive, hq]
    · cases hq.symm.trans (hs.cleared hdead)
    · have hle := hs.bounded n hn hc
      rw [hq, List.length_cons] at hle
      exact Nat.le_of_succ_le hle

theorem abandon : Values capacity (log ++ [.silence]) false c.abandon where
  capacity_eq := hs.capacity_eq
  hasReceiver_eq := rfl
  conserved hlive := by cases hlive
  cleared _ := rfl
  bounded n _ _ := Nat.zero_le n

end Values

namespace Users

variable (hs : Users log handles c)

include hs

/-- No sender comes or goes. -/
theorem congr (hsend : c'.senders = c.senders) (hhad : c'.hadSenders = c.hadSenders)
    (ha : a ≠ .issued) : Users (log ++ [a]) handles c' where
  senders_eq := hsend.trans hs.senders_eq
  hadSenders_iff := by simp [hhad, hs.hadSenders_iff, ha.symm]
  issued hne := List.mem_append_left _ (hs.issued hne)

theorem parked (n : Nat) : Users log handles { c with parked := n } :=
  ⟨hs.senders_eq, hs.hadSenders_iff, hs.issued⟩

/-- A sender comes, the first of which the receiver makes. -/
theorem attach {p : Nat} (hp : p ∉ handles) (ha : .issued ∈ log ++ [a]) :
    Users (log ++ [a]) (insert p handles) c.attach where
  senders_eq := by
    rw [Finset.card_insert_of_notMem hp, ← hs.senders_eq]
    rfl
  hadSenders_iff := iff_of_true rfl ha
  issued _ := ha

theorem detach {p : Nat} (hp : p ∈ handles) :
    Users (log ++ [.silence]) (handles.erase p) c.detach where
  senders_eq := by
    rw [Finset.card_erase_of_mem hp, ← hs.senders_eq]
    rfl
  hadSenders_iff := by simp [Channel.detach, hs.hadSenders_iff]
  issued _ := List.mem_append_left _ (hs.issued ⟨p, hp⟩)

theorem swap (p q : Nat) :
    Users (log ++ [.silence]) (handles.map (Equiv.swap p q).toEmbedding) c where
  senders_eq := hs.senders_eq.trans (Finset.card_map _).symm
  hadSenders_iff := by simp [hs.hadSenders_iff]
  issued hne := List.mem_append_left _ (hs.issued (Finset.map_nonempty.mp hne))

/-- No sender is left of those there were. -/
theorem closed_iff :
    (c.hadSenders = true ∧ c.senders = 0) ↔ (.issued ∈ log ∧ handles = ∅) := by
  rw [hs.hadSenders_iff, hs.senders_eq, Finset.card_eq_zero]

end Users

namespace Kept

theorem start (capacity : Capacity) (h : Host) :
    Kept capacity [] (Exchange.start capacity h : Exchange α) where
  values := ⟨rfl, rfl, fun _ => rfl, fun _ => rfl, fun n _ _ => Nat.zero_le n⟩
  users := ⟨rfl, by simp [Exchange.start, Channel.create], fun hne => absurd rfl hne.ne_empty⟩
  parked_eq := rfl

variable (hs : s.Kept capacity log)

include hs

/-- Nothing happens to the channel. -/
theorem idle (ha : a.accepted? = none) (hr : a.received? = none) (hi : a ≠ .issued) (h : Host) :
    Kept capacity (log ++ [a]) { s with host := h } where
  values := hs.values.congr rfl rfl rfl ha hr
  users := hs.users.congr rfl rfl hi
  parked_eq := hs.parked_eq

theorem silence : Kept capacity (log ++ [.silence]) s :=
  hs.idle rfl rfl (by simp) s.host

theorem send (v : α) : Kept capacity (log ++ [(s.send v).1]) (s.send v).2 := by
  unfold Exchange.send
  split
  next c h hsend =>
    obtain ⟨-, -, rfl⟩ := Channel.send_ok hsend
    exact ⟨hs.values.send hsend, hs.users.congr rfl rfl (by simp), hs.parked_eq⟩
  next e hsend => exact hs.idle rfl rfl (by simp) s.host

theorem poll : Kept capacity (log ++ [s.poll.1]) s.poll.2 := by
  unfold Exchange.poll
  split
  next v c h hr =>
    have ht := Channel.takes_of_receive_ok hr
    exact ⟨hs.values.take ht .hasty, hs.users.congr ht.senders_eq ht.hadSenders_eq (by simp),
      ht.parked_eq.trans hs.parked_eq⟩
  next e hr => exact hs.idle rfl rfl (by simp) s.host

omit hs in
/-- A call stops, and the count of those that wait is right again. -/
theorem finish (hv : Values capacity log s.receiver s.channel)
    (hu : Users log s.handles s.channel) {others : List Patience}
    (hp : s.channel.parked = others.length + 1) (w : Patience) :
    Kept capacity (log ++ [(s.finish w others).1]) (s.finish w others).2 := by
  have ht := s.channel.takes_resume s.host
  -- the call counts itself out first, and takes from a channel that is otherwise the same
  refine ⟨(hv.parked _).take ht w, (hu.parked _).congr ht.senders_eq ht.hadSenders_eq ?_, ?_⟩
  · simp [Exchange.finish]
  · show (s.channel.resume s.host).2.1.parked = others.length
    rw [ht.parked_eq, hp, Nat.add_sub_cancel]

theorem await (w : Patience) : Kept capacity (log ++ [(s.await w).1]) (s.await w).2 := by
  have hv := hs.values.parked (s.channel.parked + 1)
  have hu := hs.users.parked (s.channel.parked + 1)
  unfold Exchange.await
  dsimp only
  split
  · exact finish hv hu (congrArg (· + 1) hs.parked_eq) w
  · refine ⟨hv.congr rfl rfl rfl rfl rfl, hu.congr rfl rfl (by simp), ?_⟩
    show s.channel.parked + 1 = (s.calls ++ [w]).length
    rw [hs.parked_eq, List.length_append, List.length_singleton]

/-- The call at one place among those that wait stops. -/
theorem finish_at {n : Nat} {w : Patience} (hn : s.calls[n]? = some w) :
    Kept capacity (log ++ [(s.finish w (s.calls.eraseIdx n)).1])
      (s.finish w (s.calls.eraseIdx n)).2 := by
  obtain ⟨hlt, -⟩ := List.getElem?_eq_some_iff.mp hn
  refine finish hs.values hs.users ?_ w
  rw [hs.parked_eq, List.length_eraseIdx_of_lt hlt]
  omega

/-- **Every step keeps the invariant.** -/
theorem act (a : Act α) : Kept capacity (log ++ [(s.act a).1]) (s.act a).2 := by
  cases a with
  | issue p =>
    simp only [Exchange.act]
    split
    next hp =>
      exact ⟨hs.values.congr rfl rfl rfl rfl rfl, hs.users.attach hp.2 (by simp), hs.parked_eq⟩
    next => exact hs.silence
  | copy p q =>
    simp only [Exchange.act]
    split
    next hp =>
      -- whoever copies a sender has one, so one was made before
      have hmade := List.mem_append_left [Answer.silence] (hs.users.issued ⟨p, hp.1⟩)
      exact ⟨hs.values.congr rfl rfl rfl rfl rfl, hs.users.attach hp.2 hmade, hs.parked_eq⟩
    next => exact hs.silence
  | swap p q =>
    -- as many places hold a sender as before
    exact ⟨hs.silence.values, hs.users.swap p q, hs.parked_eq⟩
  | drop p =>
    simp only [Exchange.act]
    split
    next hp =>
      exact ⟨hs.values.congr rfl rfl rfl rfl rfl, hs.users.detach hp, hs.parked_eq⟩
    next => exact hs.silence
  | send p v =>
    simp only [Exchange.act]
    split
    next => exact hs.send v
    next => exact hs.silence
  | receive w =>
    simp only [Exchange.act]
    split
    next => exact hs.silence
    next =>
      split
      next => exact hs.poll
      next => exact hs.await w
  | wake n =>
    simp only [Exchange.act]
    split
    next w hn =>
      split
      next => exact hs.finish_at hn
      next => exact hs.silence
    next => exact hs.silence
  | timeout n =>
    simp only [Exchange.act]
    split
    next hn => exact hs.finish_at hn
    next => exact hs.silence
  | close =>
    -- the log owes nothing to a receiver that is gone
    exact ⟨hs.values.abandon, hs.users.congr rfl rfl (fun h => by cases h), hs.parked_eq⟩
  | elsewhere h => exact hs.idle rfl rfl (fun h => by cases h) h

omit hs in
theorem run (acts : List (Act α)) : ∀ {log : List (Answer α)} {s : Exchange α},
    s.Kept capacity log → Kept capacity (log ++ (s.run acts).1) (s.run acts).2 := by
  induction acts with
  | nil =>
    intro log s hs
    simpa [Exchange.run] using hs
  | cons a acts ih =>
    intro log s hs
    simpa [Exchange.run] using ih (hs.act a)

end Kept

/-! ### What the users may rely on -/

/-- What senders and receiver may rely on, after the answers in the log. -/
structure Contract (capacity : Capacity) (log : List (Answer α)) (s : Exchange α) : Prop where
  /-- What was accepted is what was received and then what is queued. -/
  conserved : s.receiver = true → accepted log = received log ++ s.channel.queue
  /-- The count of senders is that of the places which hold one. -/
  count : s.channel.senders = s.handles.card
  /-- A send fails for good without the receiver, and for now at the bound; a send that fails
  changes nothing. -/
  send : ∀ p ∈ s.handles, ∀ v, ∃ r, (s.act (.send p v)).1 = .sent v r ∧
    (failureKind? r = some .channelClosed ↔ s.receiver = false) ∧
    (∀ n, 1 ≤ n → capacity = .bounded n →
      (failureKind? r = some .channelFull ↔ s.channel.queue.length = n)) ∧
    (capacity = .unbounded → failureKind? r ≠ some .channelFull) ∧
    (failureKind? r ≠ none → (s.act (.send p v)).2 = s)
  /-- A receive comes back with the oldest value, if there is one. -/
  value : ∀ a w r v rest, (s.act a).1 = .received w r → s.channel.queue = v :: rest →
    r = .ok v ∧ (s.act a).2.channel.queue = rest
  /-- A receive that finds none fails for good if there were senders and none is left. -/
  nothing : ∀ a w r, (s.act a).1 = .received w r → s.channel.queue = [] →
    (failureKind? r = some .channelClosed ↔ .issued ∈ log ∧ s.handles = ∅) ∧
    (failureKind? r = some .channelEmpty ↔ ¬ (.issued ∈ log ∧ s.handles = ∅))
  /-- A receive that waits as long as it takes never comes back for want of a value. -/
  endless : ∀ a r, (s.act a).1 = .received .endless r → failureKind? r ≠ some .channelEmpty
  /-- A receive that does not wait comes back, if the receiver is there. -/
  hasty : s.receiver = true → ∃ r, (s.act (.receive .hasty)).1 = .received .hasty r
  /-- A receive that waits if it has to comes back at once if there is a value or no sender is
  left. -/
  waits : s.receiver = true → ∀ w, w ≠ .hasty →
    ((∃ r, (s.act (.receive w)).1 = .received w r) ↔
      s.channel.queue ≠ [] ∨ .issued ∈ log ∧ s.handles = ∅)
  /-- A receive that waits comes back when it looks again, if there is a value or no sender is
  left. -/
  wake : ∀ n w, s.calls[n]? = some w → ((∃ r, (s.act (.wake n)).1 = .received w r) ↔
    s.channel.queue ≠ [] ∨ .issued ∈ log ∧ s.handles = ∅)
  /-- A receive that waits for a limited time comes back when that is over. -/
  timeout : ∀ n, s.calls[n]? = some .limited → ∃ r, (s.act (.timeout n)).1 = .received .limited r

/-- A receive that comes back took what there was, and one without limit did not give up. -/
theorem takes_of_received {b : Act α} {w : Patience} {r : Except Failure α}
    (hb : (s.act b).1 = .received w r) :
    (∃ k, Channel.Takes { s.channel with parked := k } r (s.act b).2.channel) ∧
      (w = .endless → s.channel.canResume = true) := by
  cases b with
  | issue p =>
    simp only [act] at hb
    split at hb <;> cases hb
  | copy p q =>
    simp only [act] at hb
    split at hb <;> cases hb
  | swap p q => cases hb
  | drop p =>
    simp only [act] at hb
    split at hb <;> cases hb
  | send p v =>
    simp only [act] at hb
    split at hb
    · unfold send at hb
      split at hb <;> cases hb
    · cases hb
  | receive w' =>
    simp only [act] at hb ⊢
    split at hb
    · cases hb
    · split at hb
      next hlive hw =>
        rw [if_neg hlive, if_pos hw]
        unfold poll at hb ⊢
        split at hb <;> cases hb
        next v c h hr => exact ⟨⟨s.channel.parked, Channel.takes_of_receive_ok hr⟩, nofun⟩
        next e hr => exact ⟨⟨s.channel.parked, Channel.takes_of_receive_error hr⟩, nofun⟩
      next hlive hw =>
        rw [if_neg hlive, if_neg hw]
        unfold await at hb ⊢
        dsimp only at hb ⊢
        split at hb
        next hcan =>
          rw [if_pos hcan]
          cases hb
          exact ⟨⟨_, s.channel.park.takes_resume s.host⟩, fun _ => hcan⟩
        next => cases hb
  | wake n =>
    simp only [act] at hb ⊢
    split at hb
    next w' hn =>
      split at hb
      next hcan =>
        rw [if_pos hcan]
        cases hb
        exact ⟨⟨_, s.channel.takes_resume s.host⟩, fun _ => hcan⟩
      next => cases hb
    next => cases hb
  | timeout n =>
    simp only [act] at hb ⊢
    split at hb
    next hn =>
      rw [if_pos hn]
      cases hb
      exact ⟨⟨_, s.channel.takes_resume s.host⟩, nofun⟩
    next => cases hb
  | close => cases hb
  | elsewhere h => cases hb

theorem Kept.contract (hs : s.Kept capacity log) : Contract capacity log s where
  conserved := hs.values.conserved
  count := hs.users.senders_eq
  send p hp v := by
    simp only [Exchange.act, if_pos hp, Exchange.send]
    have hrec := hs.values.hasReceiver_eq
    split
    next c h hsend =>
      obtain ⟨hlive, hfull, -⟩ := Channel.send_ok hsend
      refine ⟨_, rfl, ?_, fun n hn hc => ?_, fun _ => by simp [failureKind?],
        fun hne => absurd rfl hne⟩
      · rw [← hrec, hlive]
        simp [failureKind?]
      · rw [Channel.isFull_bounded (hs.values.capacity_eq.trans hc) hn,
          decide_eq_false_iff_not] at hfull
        simp only [failureKind?, reduceCtorEq, false_iff]
        omega
    next e hsend =>
      refine ⟨_, rfl, ?_, fun n hn hc => ?_, fun hc => ?_, fun _ => rfl⟩
      · obtain ⟨hdead, rfl⟩ | ⟨hlive, -, rfl⟩ := Channel.send_error hsend
        · simp [failureKind?, Failure.kind, Failure.report, ← hrec, hdead]
        · simp [failureKind?, Failure.kind, Failure.report, ← hrec, hlive]
      · obtain ⟨hdead, rfl⟩ | ⟨hlive, hfull, rfl⟩ := Channel.send_error hsend
        · have hq := hs.values.cleared (hrec.symm.trans hdead)
          simp [failureKind?, Failure.kind, Failure.report, hq]
          omega
        · have hle := hs.values.bounded n hn hc
          rw [Channel.isFull_bounded (hs.values.capacity_eq.trans hc) hn,
            decide_eq_true_eq] at hfull
          simp only [failureKind?, Failure.kind, Failure.report, true_iff]
          omega
      · obtain ⟨-, rfl⟩ | ⟨-, hfull, -⟩ := Channel.send_error hsend
        · simp [failureKind?, Failure.kind, Failure.report]
        · rw [Channel.isFull_unbounded (hs.values.capacity_eq.trans hc)] at hfull
          cases hfull
  value b w r v rest hb hq := by
    obtain ⟨⟨k, ht⟩, -⟩ := takes_of_received hb
    generalize (s.act b).2.channel = c' at ht ⊢
    cases ht with
    | nothing hq' => cases hq.symm.trans hq'
    | value hq' =>
      obtain ⟨rfl, rfl⟩ := List.cons.inj (hq.symm.trans hq')
      exact ⟨rfl, rfl⟩
  nothing b w r hb hq := by
    obtain ⟨⟨k, ht⟩, -⟩ := takes_of_received hb
    generalize (s.act b).2.channel = c' at ht
    rw [← hs.users.closed_iff]
    cases ht with
    | value hq' => cases hq.symm.trans hq'
    | nothing =>
      by_cases hc : s.channel.hadSenders = true ∧ s.channel.senders = 0
      · simp [failureKind?, Failure.kind, Failure.report, Channel.isClosed, hc]
      · simp [failureKind?, Failure.kind, Failure.report, Channel.isClosed, hc]
  endless b r hb := by
    obtain ⟨⟨k, ht⟩, hcan⟩ := takes_of_received hb
    generalize (s.act b).2.channel = c' at ht
    cases ht with
    | value => simp [failureKind?]
    | nothing hq =>
      -- it stopped although the queue is empty, so all senders are gone
      have hc := (Channel.canResume_iff.mp (hcan rfl)).resolve_left fun hne => hne hq
      simp [failureKind?, Failure.kind, Failure.report, Channel.isClosed, hc]
  hasty hlive := by
    have hpoll : s.act (.receive .hasty) = s.poll := by simp [Exchange.act, hlive]
    rw [hpoll]
    unfold Exchange.poll
    split <;> exact ⟨_, rfl⟩
  waits hlive w hw := by
    have hawait : s.act (.receive w) = s.await w := by simp [Exchange.act, hlive, hw]
    rw [hawait, ← hs.users.closed_iff, ← Channel.canResume_iff]
    unfold Exchange.await
    have hpark : s.channel.park.canResume = s.channel.canResume := rfl
    dsimp only
    rw [hpark]
    by_cases hcan : s.channel.canResume = true
    · rw [if_pos hcan]
      exact iff_of_true ⟨_, rfl⟩ hcan
    · rw [if_neg hcan]
      exact iff_of_false (by simp) hcan
  wake n w hn := by
    rw [← hs.users.closed_iff, ← Channel.canResume_iff]
    simp only [Exchange.act, hn]
    by_cases hcan : s.channel.canResume = true
    · rw [if_pos hcan]
      exact iff_of_true ⟨_, rfl⟩ hcan
    · rw [if_neg hcan]
      exact iff_of_false (by simp) hcan
  timeout n hn := by
    simp only [Exchange.act, if_pos hn]
    exact ⟨_, rfl⟩

/-- **The contract holds after every run.**  Senders, receiver and waiting receives may take
their steps in any order, for any bound, and the host may change in between. -/
theorem run_contract (capacity : Capacity) (h : Host) (acts : List (Act α)) :
    Contract capacity ((start capacity h : Exchange α).run acts).1
      ((start capacity h : Exchange α).run acts).2 :=
  (Kept.run acts (.start capacity h)).contract

/-- A value is handed to a receive that waits for it, although the channel holds none; the next
receive learns that the sender is gone. -/
example : ((start (.bounded 0) (Host.initial .silent) : Exchange Nat).run
    [.issue 3, .send 3 7, .receive .limited, .send 3 8, .send 3 9, .drop 3, .timeout 0,
      .receive .endless]).1
    = [.issued, .sent 7 (.error .signalFull), .silence, .sent 8 (.ok ()),
      .sent 9 (.error .signalFull), .silence, .received .limited (.ok 8),
      .received .endless (.error .sendersGone)] := by
  rfl

/-! ### Assignment -/

/-- A sender is assigned to a place: it is copied to a spare place and swapped in, and what was
there before goes. -/
def copyTo (source target spare : Nat) : List (Act α) :=
  if source = target then [] else [.copy source spare, .swap spare target, .drop spare]

/-- A sender is moved to a place, and what was there before goes. -/
def moveTo (source target : Nat) : List (Act α) :=
  if source = target then [] else [.drop target, .swap source target]

theorem handles_copy (p q : Nat) : (s.act (.copy p q)).2.handles
    = if p ∈ s.handles then insert q s.handles else s.handles := by
  simp only [act]
  by_cases hp : p ∈ s.handles
  · by_cases hq : q ∈ s.handles
    · simp [hp, hq]
    · simp [hp, hq]
  · simp [hp]

theorem handles_drop (p : Nat) : (s.act (.drop p)).2.handles = s.handles.erase p := by
  simp only [act]
  by_cases hp : p ∈ s.handles
  · simp [hp]
  · simp [hp]

theorem mem_handles_swap (p q x : Nat) :
    x ∈ (s.act (.swap p q)).2.handles ↔ Equiv.swap p q x ∈ s.handles := by
  simp only [act, Finset.mem_map_equiv, Equiv.symm_swap]

/-- After a copy both places hold what the source held, if no other step comes in between. -/
theorem handles_copyTo {p q spare : Nat} (hspare : spare ∉ s.handles) (hq : spare ≠ q) :
    (s.run (copyTo p q spare)).2.handles
      = if p ∈ s.handles then insert q s.handles else s.handles.erase q := by
  unfold copyTo
  by_cases hpq : p = q
  · subst hpq
    by_cases hs : p ∈ s.handles
    · simp [run, hs]
    · simp [run, hs]
  · rw [if_neg hpq]
    ext x
    simp only [run, handles_drop, Finset.mem_erase, mem_handles_swap, handles_copy]
    -- the spare place and the target have swapped what they hold
    by_cases hx : x = spare
    · subst hx
      by_cases hs : p ∈ s.handles <;> simp [hs, hspare, hq]
    by_cases hxq : x = q
    · subst hxq
      by_cases hs : p ∈ s.handles <;> simp [hs, hspare, hx]
    rw [Equiv.swap_apply_of_ne_of_ne hx hxq]
    by_cases hs : p ∈ s.handles <;> simp [hs, hx, hxq]

/-- After a move the target holds what the source held, and the source holds nothing, if no other
step comes in between. -/
theorem handles_moveTo (p q : Nat) : (s.run (moveTo p q)).2.handles
    = if p ∈ s.handles then insert q (s.handles.erase p) else s.handles.erase q := by
  unfold moveTo
  by_cases hpq : p = q
  · subst hpq
    by_cases hs : p ∈ s.handles
    · simp [run, hs]
    · simp [run, hs]
  · rw [if_neg hpq]
    ext x
    simp only [run, mem_handles_swap, handles_drop, Finset.mem_erase]
    by_cases hx : x = p
    · subst hx
      by_cases hs : x ∈ s.handles <;> simp [hs, hpq]
    by_cases hxq : x = q
    · subst hxq
      by_cases hs : p ∈ s.handles <;> simp [hs, hpq]
    rw [Equiv.swap_apply_of_ne_of_ne hx hxq]
    by_cases hs : p ∈ s.handles <;> simp [hs, hx, hxq]

end Exchange
end EventLoop

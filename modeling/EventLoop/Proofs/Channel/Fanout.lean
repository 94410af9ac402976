import EventLoop.Channel.Broadcast
import EventLoop.Proofs.Channel.Exchange

/-!
# A broadcast and its subscribers

A broadcast is shared by its copies, and each of its subscribers has a channel and a
receiver that may move from place to place.  Values are published, received and waited
for in any order, while subscribers come and go.

## Main definitions

* `Fanout` — a broadcast, the channels of its subscribers, and who holds what.
* `Fanout.Act`, `Fanout.act`, `Fanout.run` — the steps, with the log of what was told.
* `Fanout.owed id log`, `Fanout.got id log` — what a subscriber was to get and has received.
* `Fanout.Live`, `Fanout.Full` — a subscriber that is there, and one that cannot take a value.

## Rules

* A step that its user is in no position to take does nothing: a value sent from a place
  that holds no copy, a receive at a place that holds no receiver.
* With the last copy the broadcast goes.  Its subscribers keep what is queued for them.
* A receiver that moves to a place closes the one that was there.
-/

namespace EventLoop

variable {α : Type}

/-- A broadcast, the channels of its subscribers, and who holds what. -/
structure Fanout (α : Type) where
  /-- What the copies share. -/
  broadcast : Broadcast
  /-- The channels of the subscribers. -/
  channels : Channels α
  /-- The host of their bells. -/
  host : Host
  /-- The places that hold a copy of the broadcast. -/
  copies : Finset Nat
  /-- The channel whose receiver is at a place. -/
  receivers : Nat → Option Nat
  /-- The receives that wait: at which channel, and for how long. -/
  calls : List (Nat × Patience)

namespace Fanout

/-! ### Steps -/

/-- A step. -/
inductive Act (α : Type)
  /-- A copy of the broadcast is copied to a place. -/
  | copy (source target : Nat)
  /-- A copy goes. -/
  | discard (place : Nat)
  /-- A new subscriber comes through a copy, and its receiver to a place that holds none. -/
  | subscribe (copy place : Nat)
  /-- A value is sent through a copy. -/
  | send (copy : Nat) (v : α)
  /-- A receive starts. -/
  | receive (place : Nat) (w : Patience)
  /-- A receive that waits looks again. -/
  | wake (n : Nat)
  /-- The time of a receive that waits is over. -/
  | timeout (n : Nat)
  /-- A receiver moves to a place, and what was there goes. -/
  | move (source target : Nat)
  /-- A receiver goes. -/
  | drop (place : Nat)
  /-- Something happens on the host. -/
  | elsewhere (h : Host)

/-- What a user is told in a step. -/
inductive Answer (α : Type)
  /-- Nothing. -/
  | silence
  /-- Here is the receiver of a new subscriber. -/
  | subscribed (id : Nat)
  /-- What came of a value sent. -/
  | sent (v : α) (r : Except Failure Unit)
  /-- What a receive of a subscriber comes back with. -/
  | received (id : Nat) (r : Except Failure α)

/-- The subscribers that a failure names. -/
def named : Except Failure Unit → List Nat
  | .ok _ => []
  | .error e => e.report.receivers

namespace Answer

/-- The subscriber that came. -/
def subscriber? : Answer α → Option Nat
  | .subscribed id => some id
  | _ => none

/-- The value, if one was sent that a subscriber did not refuse. -/
def owed? (id : Nat) : Answer α → Option α
  | .sent v r => if id ∈ named r then none else some v
  | _ => none

/-- The value, if a subscriber received one. -/
def got? (id : Nat) : Answer α → Option α
  | .received j r => if j = id then r.toOption else none
  | _ => none

end Answer

/-- The subscribers, in the order in which they came. -/
def subscribed (log : List (Answer α)) : List Nat := log.filterMap Answer.subscriber?

/-- What was told after a subscriber came. -/
def since (id : Nat) : List (Answer α) → List (Answer α)
  | [] => []
  | a :: log => if a.subscriber? = some id then log else since id log

/-- The values sent after a subscriber came that it did not refuse, in order. -/
def owed (id : Nat) (log : List (Answer α)) : List α := (since id log).filterMap (Answer.owed? id)

/-- The values a subscriber has received, in order. -/
def got (id : Nat) (log : List (Answer α)) : List α := (since id log).filterMap (Answer.got? id)

/-- A new broadcast, with one copy and without subscribers. -/
def start (capacity : Capacity) (h : Host) : Fanout α where
  broadcast := .new capacity
  channels := .empty
  host := h
  copies := {0}
  receivers := fun _ => none
  calls := []

/-- A copy goes, and with the last one the broadcast. -/
def discard (s : Fanout α) (p : Nat) : Fanout α :=
  if p ∈ s.copies then
    if s.copies.erase p = ∅ then
      let (t, h) := s.broadcast.dissolve s.channels s.host
      { s with channels := t, host := h, copies := ∅ }
    else { s with copies := s.copies.erase p }
  else s

/-- A new subscriber comes. -/
def subscribe (s : Fanout α) (p : Nat) : Answer α × Fanout α :=
  let (r, b, t, h) := s.broadcast.subscribe s.channels s.host
  (.subscribed r.channel, { s with
    broadcast := b, channels := t, host := h
    receivers := Function.update s.receivers p (some r.channel) })

/-- A value is sent. -/
def send (s : Fanout α) (v : α) : Answer α × Fanout α :=
  let (r, b, t, h) := s.broadcast.publish v s.channels s.host
  (.sent v r, { s with broadcast := b, channels := t, host := h })

/-- A receive that does not wait. -/
def poll (s : Fanout α) (id : Nat) : Answer α × Fanout α :=
  let (r, t, h) := s.channels.receive id s.host
  (.received id r, { s with channels := t, host := h })

/-- Need a receive at a channel wait no longer? -/
def canResume (s : Fanout α) (id : Nat) : Bool :=
  (s.channels.get? id).elim true Channel.canResume

/-- A receive that was parked stops, and leaves the other calls waiting. -/
def finish (s : Fanout α) (id : Nat) (others : List (Nat × Patience)) : Answer α × Fanout α :=
  match s.channels.get? id with
  | none => (.silence, { s with calls := others })
  | some c =>
    let (r, c, h) := c.resume s.host
    (.received id r, { s with channels := s.channels.set id c, host := h, calls := others })

/-- A receive starts to wait. -/
def park (s : Fanout α) (id : Nat) : Fanout α :=
  let (t, h) := s.channels.modify id Channel.park s.host
  { s with channels := t, host := h }

/-- A receive that waits if it has to. -/
def await (s : Fanout α) (id : Nat) (w : Patience) : Answer α × Fanout α :=
  if (s.park id).canResume id then (s.park id).finish id s.calls
  else (.silence, { s.park id with calls := s.calls ++ [(id, w)] })

/-- The receiver at a place goes, if there is one. -/
def close (s : Fanout α) (p : Nat) : Fanout α :=
  match s.receivers p with
  | none => s
  | some id =>
    let (t, h) := s.channels.modify id Channel.abandon s.host
    { s with channels := t, host := h, receivers := Function.update s.receivers p none }

/-- Two places swap the receivers they hold; if one of them holds none, the other is moved. -/
def swap (s : Fanout α) (p q : Nat) : Fanout α :=
  { s with receivers := s.receivers ∘ Equiv.swap p q }

/-- One step: what is told, and what is left. -/
def act (s : Fanout α) : Act α → Answer α × Fanout α
  | .copy p q =>
    (.silence, if p ∈ s.copies then { s with copies := insert q s.copies } else s)
  | .discard p => (.silence, s.discard p)
  | .subscribe p q =>
    if p ∈ s.copies ∧ s.receivers q = none then s.subscribe q else (.silence, s)
  | .send p v => if p ∈ s.copies then s.send v else (.silence, s)
  | .receive p w =>
    match s.receivers p with
    | none => (.silence, s)
    | some id => if w = .hasty then s.poll id else s.await id w
  | .wake n =>
    match s.calls[n]? with
    | none => (.silence, s)
    | some (id, _) =>
      if s.canResume id then s.finish id (s.calls.eraseIdx n) else (.silence, s)
  | .timeout n =>
    match s.calls[n]? with
    | some (id, .limited) => s.finish id (s.calls.eraseIdx n)
    | _ => (.silence, s)
  | .move p q => (.silence, if p = q then s else (s.close q).swap p q)
  | .drop p => (.silence, s.close p)
  | .elsewhere h =>
    (.silence, if s.host.channels ≤ h.channels then { s with host := h } else s)

/-- Steps one after the other, with the log of what was told. -/
def run (s : Fanout α) : List (Act α) → List (Answer α) × Fanout α
  | [] => ([], s)
  | a :: acts => ((s.act a).1 :: ((s.act a).2.run acts).1, ((s.act a).2.run acts).2)

/-! ### What users see -/

/-- The receiver of a subscriber is somewhere. -/
def Live (s : Fanout α) (id : Nat) : Prop := ∃ p, s.receivers p = some id

/-- How many receives of a subscriber wait. -/
def waiting (s : Fanout α) (id : Nat) : Nat := s.calls.countP (·.1 == id)

/-- A subscriber cannot take a value: as many are queued as may be or, where none may be, as
many as receives wait for one. -/
def Full (capacity : Capacity) (s : Fanout α) (id : Nat) : Prop :=
  match capacity with
  | .unbounded => False
  | .bounded 0 => s.waiting id ≤ (s.channels.queue id).length
  | .bounded n => n ≤ (s.channels.queue id).length

/-! ### The log -/

section

variable {log : List (Answer α)} {a : Answer α} {id : Nat}

@[simp] theorem subscribed_concat (log : List (Answer α)) (a : Answer α) :
    subscribed (log ++ [a]) = subscribed log ++ a.subscriber?.toList := by
  cases h : a.subscriber? <;> simp [subscribed, h]

theorem subscribed_of_none (ha : a.subscriber? = none) :
    subscribed (log ++ [a]) = subscribed log := by
  rw [subscribed_concat, ha]
  exact List.append_nil _

theorem since_concat (id : Nat) (log : List (Answer α)) (a : Answer α) :
    since id (log ++ [a]) = if id ∈ subscribed log then since id log ++ [a] else [] := by
  -- an answer counts only behind the first subscription of the id
  induction log with
  | nil => simp [since, subscribed]
  | cons b log ih =>
    rw [List.cons_append, since, since]
    by_cases hb : b.subscriber? = some id
    · have hmem : id ∈ subscribed (b :: log) := List.mem_filterMap.mpr ⟨b, List.mem_cons_self, hb⟩
      rw [if_pos hb, if_pos hb, if_pos hmem]
    · have hmem : id ∈ subscribed (b :: log) ↔ id ∈ subscribed log := by
        simp [subscribed, hb]
      rw [if_neg hb, if_neg hb, ih]
      simp only [hmem]

theorem owed_concat (hid : id ∈ subscribed log) (a : Answer α) :
    owed id (log ++ [a]) = owed id log ++ (a.owed? id).toList := by
  rw [owed, since_concat, if_pos hid, List.filterMap_append, owed]
  cases h : a.owed? id <;> simp [h]

theorem got_concat (hid : id ∈ subscribed log) (a : Answer α) :
    got id (log ++ [a]) = got id log ++ (a.got? id).toList := by
  rw [got, since_concat, if_pos hid, List.filterMap_append, got]
  cases h : a.got? id <;> simp [h]

theorem owed_of_quiet (hid : id ∈ subscribed log) (ha : a.owed? id = none) :
    owed id (log ++ [a]) = owed id log := by
  rw [owed_concat hid, ha]
  exact List.append_nil _

theorem got_of_quiet (hid : id ∈ subscribed log) (ha : a.got? id = none) :
    got id (log ++ [a]) = got id log := by
  rw [got_concat hid, ha]
  exact List.append_nil _

/-- A subscriber that just came has nothing to get. -/
theorem owed_of_new (hid : id ∉ subscribed log) : owed id (log ++ [a]) = [] := by
  rw [owed, since_concat, if_neg hid]
  rfl

theorem got_of_new (hid : id ∉ subscribed log) : got id (log ++ [a]) = [] := by
  rw [got, since_concat, if_neg hid]
  rfl

end

end Fanout
end EventLoop

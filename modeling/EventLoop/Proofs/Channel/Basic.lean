import EventLoop.Channel.Table
import Mathlib.Data.List.Basic

/-!
# What sending and taking do to a channel

Either call gives a value or a failure; what it found and what it leaves behind is read off
the answer here, so that nobody else need open the calls.

## Main definitions

* `Channel.Takes` — a receive took the oldest value, or found none.
* `Channels.queue` — the values queued in the channel with a number.

## Main results

* `Channel.send_ok`, `Channel.send_error` — what a send found.
* `Channel.receive_ok` — what a receive took.
* `Channel.takes_resume`, … — every kind of receive is one that takes.
* `Channels.queue_send`, `Channels.queue_receive` — the queue of a channel in a table.
-/

namespace EventLoop

variable {α : Type}

/-! ### One channel -/

namespace Channel

variable {c c' : Channel α} {v : α} {h h' : Host} {e : Failure}

theorem send_ok (hs : c.send v h = .ok (c', h')) :
    c.hasReceiver = true ∧ c.isFull = false ∧ c' = { c with queue := c.queue ++ [v] } := by
  unfold send at hs
  cases hr : c.hasReceiver with
  | false => simp [hr] at hs
  | true =>
    cases hf : c.isFull with
    | true => simp [hr, hf] at hs
    | false =>
      simp only [hr, hf, Bool.not_true, Bool.false_eq_true, if_false, Except.ok.injEq,
        Prod.mk.injEq] at hs
      exact ⟨rfl, rfl, hs.1.symm⟩

/-- A send rings the bell if the queue was empty. -/
theorem host_send (hs : c.send v h = .ok (c', h')) :
    h' = if c.queue.isEmpty then c.bell.set h else h := by
  obtain ⟨hlive, hroom, -⟩ := send_ok hs
  simp only [send, hlive, hroom, Bool.not_true, Bool.false_eq_true, if_false, Except.ok.injEq,
    Prod.mk.injEq] at hs
  exact hs.2.symm

theorem send_error (hs : c.send v h = .error e) :
    (c.hasReceiver = false ∧ e = .receiverGone) ∨
      (c.hasReceiver = true ∧ c.isFull = true ∧ e = .signalFull) := by
  -- the receiver is asked for before the room
  unfold send at hs
  cases hr : c.hasReceiver with
  | false =>
    simp only [hr, Bool.not_false, if_true, Except.error.injEq] at hs
    exact .inl ⟨rfl, hs.symm⟩
  | true =>
    cases hf : c.isFull with
    | true =>
      simp only [hr, hf, Bool.not_true, Bool.false_eq_true, if_false, if_true,
        Except.error.injEq] at hs
      exact .inr ⟨rfl, rfl, hs.symm⟩
    | false => simp [hr, hf] at hs

theorem isFull_unbounded (hc : c.capacity = .unbounded) : c.isFull = false := by
  simp [isFull, hc]

theorem isFull_bounded {n : Nat} (hc : c.capacity = .bounded n) (hn : 1 ≤ n) :
    c.isFull = decide (n ≤ c.queue.length) := by
  obtain ⟨m, rfl⟩ := Nat.exists_eq_add_of_le' hn
  simp [isFull, hc]

theorem canResume_iff :
    c.canResume = true ↔ c.queue ≠ [] ∨ c.hadSenders = true ∧ c.senders = 0 := by
  simp [canResume, isClosed]

theorem receive_ok (hr : c.receive h = .ok (v, c', h')) :
    ∃ rest, c.queue = v :: rest ∧ c' = { c with queue := rest } ∧
      h' = if rest.isEmpty then c.bell.clear h else h := by
  unfold receive at hr
  cases hq : c.queue with
  | nil => simp [hq] at hr
  | cons w rest =>
    simp only [hq, Except.ok.injEq, Prod.mk.injEq] at hr
    obtain ⟨rfl, rfl, rfl⟩ := hr
    exact ⟨rest, rfl, rfl, rfl⟩

/-- A receive that takes the oldest value, or finds none, leaves the channel `c'` behind. -/
inductive Takes (c : Channel α) : Except Failure α → Channel α → Prop
  | value {v rest} (hq : c.queue = v :: rest) : Takes c (.ok v) { c with queue := rest }
  | nothing (hq : c.queue = []) :
    Takes c (.error (if c.isClosed then .sendersGone else .signalEmpty)) c

theorem takes_of_receive_ok (hr : c.receive h = .ok (v, c', h')) : c.Takes (.ok v) c' := by
  obtain ⟨rest, hq, rfl, -⟩ := receive_ok hr
  exact .value hq

theorem takes_of_receive_error (hr : c.receive h = .error e) : c.Takes (.error e) c := by
  unfold receive at hr
  cases hq : c.queue with
  | nil =>
    simp only [hq, Except.error.injEq] at hr
    exact hr ▸ .nothing hq
  | cons w rest => simp [hq] at hr

theorem Takes.senders_eq {r : Except Failure α} (ht : c.Takes r c') : c'.senders = c.senders := by
  cases ht <;> rfl

theorem Takes.hadSenders_eq {r : Except Failure α} (ht : c.Takes r c') :
    c'.hadSenders = c.hadSenders := by
  cases ht <;> rfl

theorem Takes.parked_eq {r : Except Failure α} (ht : c.Takes r c') : c'.parked = c.parked := by
  cases ht <;> rfl

theorem takes_resume (c : Channel α) (h : Host) :
    Takes { c with parked := c.parked - 1 } (c.resume h).1 (c.resume h).2.1 := by
  unfold resume
  dsimp only
  split
  · exact takes_of_receive_ok ‹_›
  · exact takes_of_receive_error ‹_›

end Channel

/-! ### Tables of channels -/

namespace Channels

variable {t t' : Channels α} {id : Nat} {v : α} {h h' : Host} {e : Failure}

/-- The values queued in the channel with a number. -/
def queue (t : Channels α) (id : Nat) : List α := (t.get? id).elim [] (·.queue)

theorem get?_set (t : Channels α) (id : Nat) (c : Channel α) :
    (t.set id c).get? id = (t.get? id).map fun _ => c := by
  unfold get? set
  dsimp only
  induction t.entries with
  | nil => rfl
  | cons entry rest ih =>
    obtain ⟨k, d⟩ := entry
    -- only the first entry under an id is ever looked at
    by_cases hk : k = id
    · simp [hk]
    · have hne : (id == k) = false := beq_false_of_ne (Ne.symm hk)
      simpa only [List.map_cons, if_neg hk, List.lookup_cons, hne] using ih

theorem queue_of_get? {c : Channel α} (hc : t.get? id = some c) : t.queue id = c.queue := by
  rw [queue, hc]
  rfl

theorem queue_set {c d : Channel α} (hc : t.get? id = some c) :
    (t.set id d).queue id = d.queue :=
  queue_of_get? (by rw [get?_set, hc]; rfl)

/-- A value that was accepted is the last in the queue. -/
theorem queue_send {r : Except Failure Unit} (hs : t.send id v h = (r, t', h')) :
    t'.queue id = if r.isOk then t.queue id ++ [v] else t.queue id := by
  unfold send at hs
  cases hc : t.get? id with
  | none =>
    rw [hc] at hs
    cases hs
    rfl
  | some c =>
    rw [hc] at hs
    dsimp only at hs
    split at hs
    next c' h'' hsend =>
      cases hs
      obtain ⟨-, -, rfl⟩ := Channel.send_ok hsend
      rw [queue_set hc, queue_of_get? hc]
      rfl
    next e hsend =>
      cases hs
      rfl

/-- A value that was received was the first in the queue; without one the queue is empty. -/
theorem queue_receive {r : Except Failure α} (hr : t.receive id h = (r, t', h')) :
    (∃ v, r = .ok v ∧ t.queue id = v :: t'.queue id) ∨
      (∃ e, r = .error e) ∧ t.queue id = [] ∧ t'.queue id = [] := by
  unfold receive at hr
  cases hc : t.get? id with
  | none =>
    -- no such channel: its queue reads as empty, before and after
    have hq : t.queue id = [] := by rw [queue, hc]; rfl
    rw [hc] at hr
    cases hr
    exact .inr ⟨⟨_, rfl⟩, hq, hq⟩
  | some c =>
    rw [hc] at hr
    dsimp only at hr
    split at hr
    next w c' h'' hrec =>
      cases hr
      obtain ⟨hq⟩ := Channel.takes_of_receive_ok hrec
      rw [queue_set hc, queue_of_get? hc]
      exact .inl ⟨w, rfl, hq⟩
    next e hrec =>
      cases hr
      have hq : t.queue id = [] := by
        rw [queue_of_get? hc]
        cases Channel.takes_of_receive_error hrec with
        | nothing hq => exact hq
      exact .inr ⟨⟨e, rfl⟩, hq, hq⟩

end Channels
end EventLoop

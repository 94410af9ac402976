import EventLoop.Notifier

/-!
# Channels

A queue between any number of senders and one receiver. Its bell is a descriptor that is
readable while values are queued.

## Main definitions

* `Channel` — the state both sides share.
* `Channel.attach`, `Channel.detach` — a sender comes or goes.
* `Channel.send`, `Channel.receive` — a value goes in or comes out.
* `Channel.park`, `Channel.resume` — a receive that waits: it parks, and later takes its
  value or reports that there is none.
* `Channel.abandon` — the receiver goes.

## Rules

* A channel that holds no values and can hold none hands a value over only to a parked
  receive that has not been promised one.
* Without a receiver every send fails. A receive on an empty channel fails for good once
  there have been senders and all are gone; a new sender revives it.
-/

namespace EventLoop

/-- The state shared by one receiver and its senders. -/
structure Channel (α : Type) where
  /-- The identity of the receiving end. -/
  id : Nat
  /-- How many values may be queued. -/
  capacity : Capacity
  /-- The values sent and not yet received, oldest first. -/
  queue : List α
  /-- Readable while values are queued. -/
  bell : Notifier
  /-- How many senders there are. -/
  senders : Nat
  /-- Was there ever a sender? -/
  hadSenders : Bool
  /-- Is there a receiver? -/
  hasReceiver : Bool
  /-- How many receives wait for a value. -/
  parked : Nat

namespace Channel

variable {α : Type}

/-- A new channel with a receiver and no sender. -/
def create (capacity : Capacity) (h : Host) : Channel α × Host :=
  let id := h.channels
  let (bell, h) := Notifier.create { h with channels := id + 1 }
  ({ id, capacity, queue := [], bell, senders := 0, hadSenders := false, hasReceiver := true,
     parked := 0 }, h)

/-- All senders are gone. -/
def isClosed (c : Channel α) : Bool := c.hadSenders && c.senders == 0

/-- Nobody uses the channel any more. -/
def isOrphan (c : Channel α) : Bool := !c.hasReceiver && c.senders == 0

/-- A sender comes. -/
def attach (c : Channel α) : Channel α :=
  { c with senders := c.senders + 1, hadSenders := true }

/-- A sender goes. -/
def detach (c : Channel α) : Channel α := { c with senders := c.senders - 1 }

/-- May no value be queued right now? -/
def isFull (c : Channel α) : Bool :=
  match c.capacity with
  | .unbounded => false
  | .bounded 0 => decide (c.parked ≤ c.queue.length)
  | .bounded limit => decide (limit ≤ c.queue.length)

/-- Queues a value for the receiver. The first value in the queue rings the bell. -/
def send (c : Channel α) (v : α) (h : Host) : Except Failure (Channel α × Host) :=
  if !c.hasReceiver then .error .receiverGone
  else if c.isFull then .error .signalFull
  else
    .ok ({ c with queue := c.queue ++ [v] }, if c.queue.isEmpty then c.bell.set h else h)

/-- Takes the oldest value. The last value taken silences the bell. -/
def receive (c : Channel α) (h : Host) : Except Failure (α × Channel α × Host) :=
  match c.queue with
  | [] => .error (if c.isClosed then .sendersGone else .signalEmpty)
  | v :: rest =>
    .ok (v, { c with queue := rest }, if rest.isEmpty then c.bell.clear h else h)

/-- A receive starts to wait. -/
def park (c : Channel α) : Channel α := { c with parked := c.parked + 1 }

/-- A waiting receive need not wait any longer. -/
def canResume (c : Channel α) : Bool := !c.queue.isEmpty || c.isClosed

/-- A receive stops waiting, because it may or because its time is up, and takes a value. -/
def resume (c : Channel α) (h : Host) : Except Failure α × Channel α × Host :=
  let c := { c with parked := c.parked - 1 }
  match c.receive h with
  | .ok (v, c, h) => (.ok v, c, h)
  | .error e => (.error e, c, h)

/-- The receiver goes, and the queued values with it. -/
def abandon (c : Channel α) : Channel α := { c with hasReceiver := false, queue := [] }

/-- Gives the bell back once nobody uses the channel. -/
def release (c : Channel α) (h : Host) : Host := if c.isOrphan then c.bell.close h else h

end Channel

/-- The receiving end of a channel. -/
structure Receiver where
  /-- The channel. -/
  channel : Nat
  /-- The descriptor that tells of queued values. -/
  bell : Notifier
  deriving DecidableEq, Repr

/-- The receiving end of a channel. -/
def Channel.receiver {α : Type} (c : Channel α) : Receiver := ⟨c.id, c.bell⟩

end EventLoop

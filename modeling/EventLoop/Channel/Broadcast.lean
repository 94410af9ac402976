import EventLoop.Channel.Table

/-!
# Broadcasts

Hands every value to all current subscribers, each with a queue of its own.

## Main definitions

* `Broadcast` — the subscribers in the order in which they came.
* `Broadcast.subscribe` — a new subscriber, which sees later values only.
* `Broadcast.publish` — a copy for every subscriber. Subscribers that are gone are
  forgotten; those that are full are named in the failure, and the others have the value.
-/

namespace EventLoop

/-- The subscribers to a stream of values. -/
structure Broadcast where
  /-- The size of each subscriber's queue. -/
  capacity : Capacity
  /-- The channels of the subscribers, oldest first. -/
  subscribers : List Nat
  deriving DecidableEq, Repr

namespace Broadcast

variable {α : Type}

/-- A broadcast without subscribers. -/
def new (capacity : Capacity) : Broadcast := ⟨capacity, []⟩

/-- A new subscriber. -/
def subscribe (b : Broadcast) (t : Channels α) (h : Host) :
    Receiver × Broadcast × Channels α × Host :=
  let (c, h) := Channel.create b.capacity h
  (c.receiver, { b with subscribers := b.subscribers ++ [c.id] }, t.add c.attach, h)

/-- Offers a value to each of a list of subscribers: those that refused it, whether one of
them is gone, and the channels afterwards. -/
def offer (v : α) (t : Channels α) (h : Host) :
    List Nat → List Nat × Bool × Channels α × Host
  | [] => ([], false, t, h)
  | id :: rest =>
    match t.send id v h with
    | (.ok (), t, h) => offer v t h rest
    | (.error e, t, h) =>
      let (refused, gone, t, h) := offer v t h rest
      if e = .receiverGone then (refused, true, t, h) else (id :: refused, gone, t, h)

/-- Is the receiver of a channel still there? -/
def isLive (t : Channels α) (id : Nat) : Bool := (t.get? id).elim false (·.hasReceiver)

/-- Lets go of the subscribers whose receiver is gone. -/
def prune (b : Broadcast) (t : Channels α) (h : Host) : Broadcast × Channels α × Host :=
  let gone := b.subscribers.filter fun id => !isLive t id
  let (t, h) := gone.foldl (fun (t, h) id => t.modify id Channel.detach h) (t, h)
  ({ b with subscribers := b.subscribers.filter fun id => !gone.contains id }, t, h)

/-- Gives every subscriber a copy of a value. -/
def publish (b : Broadcast) (v : α) (t : Channels α) (h : Host) :
    Except Failure Unit × Broadcast × Channels α × Host :=
  let (refused, gone, t, h) := offer v t h b.subscribers
  let (b, t, h) := if gone then b.prune t h else (b, t, h)
  if refused.isEmpty then (.ok (), b, t, h)
  else (.error (.subscribersFull refused), b, t, h.note (.publishRefused refused.length))

/-- Lets go of all subscribers. -/
def dissolve (b : Broadcast) (t : Channels α) (h : Host) : Channels α × Host :=
  b.subscribers.foldl (fun (t, h) id => t.modify id Channel.detach h) (t, h)

end Broadcast

end EventLoop

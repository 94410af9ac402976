import EventLoop.Channel.Basic

/-!
# Tables of channels

Senders and receivers name their channel by its number; the table holds the channels.

## Main definitions

* `Channels` — the channels somebody uses.
* `Channels.get?` — the view of a table.
* `Channels.put` — replaces a channel, or drops it once nobody uses it.
-/

namespace EventLoop

/-- The channels somebody uses, each under its number. -/
structure Channels (α : Type) where
  /-- Number and state of each channel. -/
  entries : List (Nat × Channel α)

namespace Channels

variable {α : Type}

/-- A table without channels. -/
def empty : Channels α := ⟨[]⟩

/-- The channel with a number. -/
def get? (t : Channels α) (id : Nat) : Option (Channel α) := t.entries.lookup id

/-- Adds a new channel. -/
def add (t : Channels α) (c : Channel α) : Channels α := ⟨t.entries ++ [(c.id, c)]⟩

/-- Replaces the channel with a number. -/
def set (t : Channels α) (id : Nat) (c : Channel α) : Channels α :=
  ⟨t.entries.map fun (k, d) => if k = id then (k, c) else (k, d)⟩

/-- Takes a channel out. -/
def erase (t : Channels α) (id : Nat) : Channels α := ⟨t.entries.filter (·.1 != id)⟩

/-- Replaces the channel with a number; if nobody uses it any more it goes, and so does its
bell. -/
def put (t : Channels α) (id : Nat) (c : Channel α) (h : Host) : Channels α × Host :=
  if c.isOrphan then (t.erase id, c.release h) else (t.set id c, h)

/-- Changes a channel that need not exist, and drops it once nobody uses it. -/
def modify (t : Channels α) (id : Nat) (f : Channel α → Channel α) (h : Host) :
    Channels α × Host :=
  match t.get? id with
  | some c => t.put id (f c) h
  | none => (t, h)

/-- Sends to the channel with a number. -/
def send (t : Channels α) (id : Nat) (v : α) (h : Host) :
    Except Failure Unit × Channels α × Host :=
  match t.get? id with
  | none => (.error .receiverGone, t, h)
  | some c =>
    match c.send v h with
    | .ok (c, h) => (.ok (), t.set id c, h)
    | .error e => (.error e, t, h)

/-- Receives from the channel with a number. -/
def receive (t : Channels α) (id : Nat) (h : Host) :
    Except Failure α × Channels α × Host :=
  match t.get? id with
  | none => (.error .sendersGone, t, h)
  | some c =>
    match c.receive h with
    | .ok (v, c, h) => (.ok v, t.set id c, h)
    | .error e => (.error e, t, h)

end Channels

end EventLoop

import EventLoop.Net.Stream

/-!
# Sessions

State per connection, keyed by token. Sessions that own a resource are registered under the
key of their slot, so that events lead to them; sessions of plain data are only stored.

## Main definitions

* `Session` — how a session is registered and given back.
* `Sessions` — the table.
* `Sessions.add` — stores a session under the next key that the system does not hold. A key
  it holds is skipped and never issued again. If the session cannot be registered it goes.
* `Sessions.remove` — drops a session.
-/

namespace EventLoop

/-- What it takes to keep a session of a kind. -/
class Session (α : Type) where
  /-- Registers a session under the key of its slot. -/
  claim : Token → α → Loop → Except Failure Unit × α × Loop
  /-- Gives a session back. -/
  drop : α → Loop → Loop

instance : Session String where
  claim _ s l := (.ok (), s, l)
  drop _ l := l

instance {ι : Type} [Pollable ι] : Session (Evented ι) where
  claim token s l := s.registerAt token l
  drop s l := s.drop l

/-- Sessions by token. -/
structure Sessions (α : Type) where
  /-- The slots. -/
  slab : Slab α

namespace Sessions

variable {α : Type} [Session α]

/-- A table without sessions. -/
def empty (offset : Nat) (policy : Capacity) : Sessions α := ⟨Slab.empty offset policy⟩

/-- Tries the next keys, at most so many. -/
def tryAdd (v : α) (s : Slab α) (l : Loop) : Nat → Except Failure Token × Slab α × Loop
  | 0 => (.error (.table .full), s, Session.drop v l)
  | left + 1 =>
    match s.insert v with
    | .error refusal => (.error (.table refusal), s, Session.drop v l)
    | .ok (key, stored) =>
      match Session.claim key v l with
      | (.ok (), v, l) => (.ok key, stored.set key v, l.note (.sessionAdded key))
      | (.error f, v, l) =>
        let freed := (stored.remove key).2
        if f.isClash && l.system.isRegistered key then
          tryAdd v (freed.retire key) (l.note (.sessionSkipped key)) left
        else (.error f, freed, Session.drop v (l.note (.sessionRejected key f)))

/-- Stores a session. No more keys can be skipped than the system holds. -/
def add (s : Sessions α) (v : α) (l : Loop) : Except Failure Token × Sessions α × Loop :=
  let (r, slab, l) := tryAdd v s.slab l (l.system.registered + 1)
  (r, ⟨slab⟩, l)

/-- Drops a session; a key without one is ignored. -/
def remove (s : Sessions α) (token : Token) (l : Loop) : Sessions α × Loop :=
  match s.slab.remove token with
  | (some v, slab) => (⟨slab⟩, (Session.drop v l).note (.sessionRemoved token))
  | (none, _) => (s, l)

/-- Drops all sessions, in the order of their keys. -/
def dropAll (s : Sessions α) (l : Loop) : Loop :=
  s.slab.entries.foldl (fun l (_, v) => Session.drop v l) l

end Sessions

end EventLoop

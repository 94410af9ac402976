import EventLoop.Producer
import EventLoop.Proofs.Channel.Basic
import EventLoop.Tree.Basic

/-!
# Trees of producers

A tree whose leaves are producers.  Each leaf names its producer, and the producers
stand beside the tree, where values are put into them between the turns.

## Main definitions

* `Producer` — a generator, a single value, or the receiving end of a channel.
* `Producer.queue` — the values still to come; `Producer.put` adds one.
* `Stock` — the producers by name; `Stock.drive` gives one of them a turn.
* `Stock.Leaf`, `Stock.behaviour` — the leaves that stand for producers, and what they do.

## Main results

* `Producer.values_react` — **a turn gives the first value still to come, or none.**
* `Producer.isValue_react` — a producer whose turn it is gives a value if there is one.
-/

namespace EventLoop

variable {α : Type}

/-- A source of values. -/
inductive Producer (α : Type)
  /-- A queue of values. -/
  | generator (g : Generator α)
  /-- A single value. -/
  | mono (m : Mono α)
  /-- The receiving end of a channel, which is in the table. -/
  | signal (e : Evented Receiver) (t : Channels α)

namespace Producer

/-- One turn. -/
def react (x : Producer α) (input : Reaction Unit) (h : Host) :
    Reaction α × Producer α × Host :=
  match x with
  | .generator g => ((g.react input h).1, .generator (g.react input h).2.1, (g.react input h).2.2)
  | .mono m => ((m.react input h).1, .mono (m.react input h).2.1, (m.react input h).2.2)
  | .signal e t =>
    ((e.receive input t h).1, .signal e (e.receive input t h).2.1, (e.receive input t h).2.2)

/-- The values still to come, next one first. -/
def queue : Producer α → List α
  | .generator g => g.queue
  | .mono m => m.value.toList
  | .signal e t => t.queue e.inner.channel

/-- Is this an event of its own? -/
def owns : Producer α → Event → Bool
  | .generator g, event => g.evented.owns event
  | .mono m, event => m.evented.owns event
  | .signal e _, event => e.owns event

/-- Does it give a value on its own event only? -/
def isMono : Producer α → Bool
  | .mono _ => true
  | _ => false

/-- Is it its turn to give a value? -/
def asked (x : Producer α) : Reaction Unit → Bool
  | .value _ => false
  | .idle => !x.isMono
  | .event e => x.owns e

/-- Pushes or sends a value, unless it is refused. -/
def put (x : Producer α) (v : α) (h : Host) : Option (Producer α × Host) :=
  match x with
  | .generator g => some (.generator (g.push v h).1, (g.push v h).2)
  | .mono _ => none
  | .signal e t =>
    match t.send e.inner.channel v h with
    | (.ok (), t, h) => some (.signal e t, h)
    | (.error _, _, _) => none

variable {x x' : Producer α} {v : α} {h h' : Host}

theorem queue_put (hput : x.put v h = some (x', h')) : x'.queue = x.queue ++ [v] := by
  cases x with
  | generator g =>
    cases hput
    rfl
  | mono m => cases hput
  | signal e t =>
    unfold put at hput
    dsimp only at hput
    -- a signal is refused where the receiver is gone or the channel is full
    split at hput
    next t' h'' hsend =>
      cases hput
      exact Channels.queue_send hsend
    next => cases hput

@[simp] theorem isMono_react (x : Producer α) (input : Reaction Unit) (h : Host) :
    (x.react input h).2.1.isMono = x.isMono := by
  cases x <;> rfl

end Producer

/-! ### One turn -/

namespace Generator

theorem values_react (g : Generator α) (input : Reaction Unit) (h : Host) :
    (g.react input h).1.values ++ (g.react input h).2.1.queue = g.queue := by
  unfold react
  cases hq : g.queue with
  | nil =>
    cases input with
    | value _ => simp [hq]
    | idle => simp [hq]
    | event e =>
      dsimp only
      -- nothing is queued, so at most the flag goes
      split <;> simp [hq]
  | cons v rest =>
    cases input with
    | value _ => simp [hq]
    | idle => rfl
    | event e =>
      dsimp only
      split
      · rfl
      · simp [hq]

theorem isValue_react {g : Generator α} {input : Reaction Unit}
    (ha : (Producer.generator g).asked input = true) (hq : g.queue ≠ []) (h : Host) :
    (g.react input h).1.isValue = true := by
  unfold react
  obtain ⟨v, rest, hq⟩ := List.exists_cons_of_ne_nil hq
  rw [hq]
  cases input with
  | value _ => cases ha
  | idle => rfl
  | event e =>
    have howns : g.evented.owns e = true := ha
    simp only [howns, if_true]
    rfl

end Generator

namespace Mono

theorem values_react (m : Mono α) (input : Reaction Unit) (h : Host) :
    (m.react input h).1.values ++ (m.react input h).2.1.value.toList = m.value.toList := by
  unfold react
  cases input with
  | value _ => rfl
  | idle => rfl
  | event e =>
    dsimp only
    split
    · split
      next v hv => simp [hv]
      next hv => simp [hv]
    · rfl

theorem isValue_react {m : Mono α} {input : Reaction Unit}
    (ha : (Producer.mono m).asked input = true) (hq : m.value.toList ≠ []) (h : Host) :
    (m.react input h).1.isValue = true := by
  unfold react
  cases input with
  | value _ => cases ha
  | idle => cases ha
  | event e =>
    have howns : m.evented.owns e = true := ha
    simp only [howns, if_true]
    cases hv : m.value with
    | none => simp [hv] at hq
    | some v => rfl

end Mono

namespace Evented

/-- What a turn of the receiving end takes from the channel. -/
theorem receive_take (e : Evented Receiver) (t : Channels α) (h : Host) :
    (e.receive .idle t h).1.values ++ (e.receive .idle t h).2.1.queue e.inner.channel
        = t.queue e.inner.channel ∧
      ((e.receive .idle t h).1.isValue = false → t.queue e.inner.channel = []) := by
  unfold receive
  dsimp only
  split
  next v t' h' hr =>
    -- a value taken is the head of the queue; an error means that the queue was empty
    obtain ⟨w, hw, hq⟩ | ⟨⟨f, hf⟩, -⟩ := Channels.queue_receive hr
    · cases hw
      exact ⟨hq.symm, nofun⟩
    · cases hf
  next f t' h' hr =>
    obtain ⟨w, hw, -⟩ | ⟨-, hq, hq'⟩ := Channels.queue_receive hr
    · cases hw
    · exact ⟨hq'.trans hq.symm, fun _ => hq⟩

theorem values_receive (e : Evented Receiver) (input : Reaction Unit) (t : Channels α)
    (h : Host) : (e.receive input t h).1.values ++ (e.receive input t h).2.1.queue e.inner.channel
      = t.queue e.inner.channel := by
  cases input with
  | value _ => rfl
  | idle => exact (e.receive_take t h).1
  | event event =>
    -- an event of its own is answered like a call without one
    by_cases howns : e.owns event = true
    · have hown : e.receive (.event event) t h = e.receive .idle t h := by
        simp only [receive, howns, if_true]
      rw [hown]
      exact (e.receive_take t h).1
    · simp only [receive, howns]
      rfl

theorem isValue_receive {e : Evented Receiver} {input : Reaction Unit} {t : Channels α}
    (ha : (Producer.signal e t).asked input = true) (hq : t.queue e.inner.channel ≠ [])
    (h : Host) : (e.receive input t h).1.isValue = true := by
  have hidle : (e.receive .idle t h).1.isValue = true := by
    -- no value would mean that nothing was queued
    by_contra hne
    exact hq ((e.receive_take t h).2 (Bool.not_eq_true _ ▸ hne))
  cases input with
  | value _ => cases ha
  | idle => exact hidle
  | event event =>
    have howns : e.owns event = true := ha
    have hown : e.receive (.event event) t h = e.receive .idle t h := by
      simp only [receive, howns, if_true]
    rw [hown]
    exact hidle

end Evented

namespace Producer

/-- **A turn gives the first value still to come, or none.** -/
theorem values_react (x : Producer α) (input : Reaction Unit) (h : Host) :
    (x.react input h).1.values ++ (x.react input h).2.1.queue = x.queue := by
  cases x with
  | generator g => exact g.values_react input h
  | mono m => exact m.values_react input h
  | signal e t => exact e.values_receive input t h

/-- A producer whose turn it is gives a value if there is one. -/
theorem isValue_react {x : Producer α} {input : Reaction Unit} (ha : x.asked input = true)
    (hq : x.queue ≠ []) (h : Host) : (x.react input h).1.isValue = true := by
  cases x with
  | generator g => exact Generator.isValue_react ha hq h
  | mono m => exact Mono.isValue_react ha hq h
  | signal e t => exact Evented.isValue_receive ha hq h

end Producer

/-! ### Producers by name -/

variable {ι : Type}

/-- The producers by name, each with the kind of its values. -/
abbrev Stock (kind : ι → Payload) := (i : ι) → Producer (kind i).Val

/-- A leaf that stands for the producer with a name. -/
inductive Stock.Leaf (kind : ι → Payload) : Payload → Payload → Type
  /-- The producer with the name `i`. -/
  | of (i : ι) : Stock.Leaf kind .unit (kind i)

namespace Stock

variable {kind : ι → Payload} [DecidableEq ι]

/-- One turn of the producer with a name. -/
def drive (i : ι) (input : Reaction Unit) (w : Stock kind × Loop) :
    Reaction (kind i).Val × Stock kind × Loop :=
  (((w.1 i).react input w.2.host).1,
    Function.update w.1 i ((w.1 i).react input w.2.host).2.1,
    { w.2 with host := ((w.1 i).react input w.2.host).2.2 })

/-- What the leaves do. A function of a tree acts on nothing else. -/
def behaviour (kind : ι → Payload) :
    Behaviour (Stock.Leaf kind) (fun p q => p.Val → q.Val) (StateM (Stock kind × Loop)) where
  react l input w :=
    match l with
    | .of i => (((drive i input w).1, .of i), (drive i input w).2)
  apply f v := pure (f v)

end Stock
end EventLoop

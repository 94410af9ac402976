import EventLoop.Net.Socket
import EventLoop.System.Basic

/-!
# Evented resources

Binds a resource to a token and an interest, and remembers the readiness reported for it.

## Main definitions

* `Evented ι` — a resource with its registration and two latches.
* `Evented.register`, `Evented.registerAt`, `Evented.reregister`, `Evented.deregister`.
* `Evented.accept` — latches the readiness of an event of its own.
* `Evented.read`, `Evented.write` — for streams: a read that finds nothing clears the
  readable latch; a write that has to wait asks to be woken when there is room.
* `Evented.moveOut`, `Evented.assign` — a resource moves to another place, and its
  registration with it.

Writable interest asked for by a write is given back with the first event that reports room
or closure.
-/

namespace EventLoop

/-- A resource with a descriptor. -/
class Pollable (ι : Type) where
  /-- The descriptor, if there is one. -/
  descriptor : ι → Option Nat
  /-- What is left of a resource that was moved away. -/
  hollow : ι → ι
  /-- Gives the resource back. -/
  close : ι → Host → Host

instance : Pollable Notifier where
  descriptor n := n.descriptor
  hollow _ := .hollow
  close n h := n.close h

instance : Pollable Socket where
  descriptor s := s.descriptor
  hollow s := { s with descriptor := none }
  close s h := h.close? s.descriptor

/-- A resource with its registration and the readiness reported for it. -/
structure Evented (ι : Type) where
  /-- The resource. -/
  inner : ι
  /-- The token it is registered under. -/
  token : Option Token
  /-- What it is to be woken for. -/
  interest : Interest
  /-- A write has asked for writable readiness on top. -/
  armed : Bool
  /-- Readable, as far as is known. -/
  readable : Bool
  /-- Writable, as far as is known. -/
  writable : Bool
  deriving DecidableEq, Repr

namespace Evented

variable {ι : Type}

/-- A resource that is not registered. -/
def new (inner : ι) (interest : Interest) : Evented ι :=
  ⟨inner, none, interest, false, false, false⟩

/-- The interest in effect. -/
def effective (e : Evented ι) : Interest :=
  if e.armed then e.interest.union .writable else e.interest

/-- Is this an event of its own? -/
def owns (e : Evented ι) (event : Event) : Bool := e.token == some event.token

/-- Forgets the readable latch. -/
def clearReadable (e : Evented ι) : Evented ι := { e with readable := false }

/-- Forgets the writable latch. -/
def clearWritable (e : Evented ι) : Evented ι := { e with writable := false }

variable [Pollable ι]

/-! ### Registration -/

/-- Registers under the next token. -/
def register (e : Evented ι) (l : Loop) : Except Failure Unit × Evented ι × Loop :=
  match e.token with
  | some _ => (.error .alreadyRegistered, e, l)
  | none =>
    match l.register (Pollable.descriptor e.inner) e.interest with
    | (.ok token, l) => (.ok (), { e with token := some token }, l)
    | (.error f, l) => (.error f, e, l)

/-- Registers under a token of the caller's choice. -/
def registerAt (e : Evented ι) (token : Token) (l : Loop) :
    Except Failure Unit × Evented ι × Loop :=
  match e.token with
  | some _ => (.error .alreadyRegistered, e, l)
  | none =>
    match l.registerAt (Pollable.descriptor e.inner) token e.interest with
    | (.ok (), l) => (.ok (), { e with token := some token }, l)
    | (.error f, l) => (.error f, e, l)

/-- Replaces the interest, and with it what a write has asked for. -/
def reregister (e : Evented ι) (i : Interest) (l : Loop) :
    Except Failure Unit × Evented ι × Loop :=
  match e.token with
  | none => (.ok (), { e with interest := i, armed := false }, l)
  | some token =>
    match l.reregister token i with
    | (.ok (), l) => (.ok (), { e with interest := i, armed := false }, l)
    | (.error f, l) => (.error f, e, l)

/-- Gives the token back, if there is one, and forgets both latches. -/
def deregister (e : Evented ι) (l : Loop) : Except Failure Unit × Evented ι × Loop :=
  match e.token with
  | none => (.ok (), e, l)
  | some token =>
    let (r, l) := l.deregister token
    (r, { e with token := none, armed := false, readable := false, writable := false }, l)

/-- Gives the token back; that the multiplexer kept the descriptor is only mentioned. -/
def release (e : Evented ι) (l : Loop) : Evented ι × Loop :=
  match e.deregister l with
  | (.ok (), e, l) => (e, l)
  | (.error f, e, l) => (e, l.note (.dropFailed f))

/-- Gives the token and the resource back. -/
def drop (e : Evented ι) (l : Loop) : Loop :=
  let (e, l) := e.release l
  { l with host := Pollable.close e.inner l.host }

/-! ### Readiness -/

/-- Takes back the writable interest a write has asked for. -/
def disarm (e : Evented ι) (token : Token) (l : Loop) : Evented ι × Loop :=
  match l.reregister token e.interest with
  | (.ok (), l) => ({ e with armed := false }, l)
  | (.error f, l) => ({ e with armed := false }, l.note (.disarmFailed token f))

/-- Latches the readiness of an event of its own; says whether it was one. -/
def accept (e : Evented ι) (event : Event) (l : Loop) : Bool × Evented ι × Loop :=
  if e.owns event then
    let r := event.ready
    let e := { e with
      readable := e.readable || r.isReadable || r.isClosed
      writable := e.writable || r.isWritable || r.isClosed }
    if e.armed && (r.isWritable || r.isClosed) then
      let (e, l) := e.disarm event.token l
      (true, e, l)
    else (true, e, l)
  else (false, e, l)

/-! ### Moving -/

/-- What moves to a new place, and what is left at the old one. -/
def moveOut (e : Evented ι) : Evented ι × Evented ι :=
  (e, { e with
    inner := Pollable.hollow e.inner
    token := none
    armed := false
    readable := false
    writable := false })

/-- Moves `source` to the place of `target`, whose token and resource are given back: what is
there afterwards, and what is left of `source`. -/
def assign (target source : Evented ι) (l : Loop) : Evented ι × Evented ι × Loop :=
  let l := target.drop l
  let (moved, rest) := source.moveOut
  (moved, rest, l)

/-! ### Streams -/

/-- What a read that gave this answer leaves: end of stream and failures clear the readable
latch. -/
def afterRead (e : Evented ι) : Except Failure (List UInt8) → Evented ι
  | .ok bytes => if bytes.isEmpty then e.clearReadable else e
  | .error _ => e.clearReadable

/-- What a write that gave this answer leads to. If it has to wait, the writable latch is
cleared and writable interest is asked for until the next event that reports it. -/
def afterWrite (e : Evented ι) (r : Except Failure Nat) (l : Loop) :
    Except Failure Nat × Evented ι × Loop :=
  match r with
  | .ok n => (.ok n, e, l)
  | .error f =>
    if f.isWouldBlock then
      let e := e.clearWritable
      match e.token, e.effective.isWritable with
      | some token, false =>
        match l.reregister token (e.interest.union .writable) with
        | (.ok (), l) => (.error f, { e with armed := true }, l)
        | (.error g, l) => (.error g, e, l)
      | _, _ => (.error f, e, l)
    else (.error f, e, l)

/-- Receives at most `most` bytes. -/
def read (e : Evented Socket) (most : Nat) (l : Loop) :
    Except Failure (List UInt8) × Evented Socket × Loop :=
  let (r, h) := e.inner.read most l.host
  (r, e.afterRead r, { l with host := h })

/-- Sends bytes. -/
def write (e : Evented Socket) (bytes : List UInt8) (l : Loop) :
    Except Failure Nat × Evented Socket × Loop :=
  let (r, h) := e.inner.write bytes l.host
  e.afterWrite r { l with host := h }

/-- Sends zero bytes until no more are taken; the answer says why. -/
def fill (e : Evented Socket) (l : Loop) : Except Failure Nat × Evented Socket × Loop :=
  e.write [0] { l with host := l.host.fill e.inner.descriptor }

/-- Receives until nothing is left; the answer says why it stopped. -/
def drain (e : Evented Socket) (l : Loop) : Except Failure Unit × Evented Socket × Loop :=
  let (r, h) := e.inner.drain l.host
  (r, e.clearReadable, { l with host := h })

end Evented

end EventLoop

import EventLoop.Host.Multiplexer

/-!
# Pollers

A multiplexer of one's own, keyed by token, with the source of its answers.

## Main definitions

* `Poller` — a multiplexer by its descriptor, and where its answers come from.
* `Poller.add`, `Poller.modify`, `Poller.remove` — what it watches.
* `Poller.asked` — how many reports a wait asks for.
* `Poller.wait` — one wait. A wait that was interrupted is tried again, ten times in all.

The reports of a wait are taken to fit into memory, however many are wanted.
-/

namespace EventLoop

/-- A multiplexer. -/
structure Poller where
  /-- Its descriptor; none if it was moved away. -/
  descriptor : Option Nat
  /-- Where its answers come from. -/
  source : Source
  deriving DecidableEq, Repr

namespace Poller

/-- A new multiplexer that watches nothing. -/
def create (source : Source) (h : Host) : Except Failure (Poller × Host) :=
  match h.allocate (.multiplexer []) with
  | .ok (fd, h) => .ok (⟨some fd, source⟩, h)
  | .error e => .error (.os .openPoller e)

/-- Watches a descriptor. -/
def add (p : Poller) (fd : Option Nat) (token : Token) (i : Interest) (h : Host) :
    Except Failure Host :=
  (h.control p.descriptor fd (.add token i.mask)).mapError (.os .control)

/-- Watches a descriptor differently. -/
def modify (p : Poller) (fd : Option Nat) (token : Token) (i : Interest) (h : Host) :
    Except Failure Host :=
  (h.control p.descriptor fd (.modify token i.mask)).mapError (.os .control)

/-- Watches a descriptor no longer. -/
def remove (p : Poller) (fd : Option Nat) (h : Host) : Except Failure Host :=
  (h.control p.descriptor fd .remove).mapError (.os .remove)

/-- How often an interrupted wait is tried. -/
def attempts : Nat := 10

/-- How many reports a wait asks for: as many as are wanted, but for at least one. The number is
handed over in 32 bits, one of them for the sign, and one that does not fit wraps around. -/
def asked (most : Nat) : Int := (max most 1 : Int).bmod UInt32.size

/-- Waits until an answer other than an interruption comes, or no attempt is left. An interruption
is logged before anybody looks at the error number again. -/
def insist (p : Poller) (most timeout : Int) :
    Nat → Host → Except Errno (List (Token × Mask)) × Host
  | 0, h => (.error .interrupted, h)
  | left + 1, h =>
    match h.await p.source p.descriptor most timeout with
    | (.error e, h) =>
      if e = .interrupted then
        if left = 0 then (.error (h.errnoAfter .trace e), h) else p.insist most timeout left h
      else (.error e, h)
    | answer => answer

/-- The event of one report. -/
def event (report : Token × Mask) : Event := ⟨report.1, report.2.ready⟩

/-- Waits for at most `most` events, but for at least one, and appends them to `events`. -/
def wait (p : Poller) (events : List Event) (most : Nat) (timeout : Int) (h : Host) :
    Except Failure Nat × List Event × Host :=
  match p.insist (asked most) timeout attempts h with
  | (.ok reports, h) => (.ok reports.length, events ++ reports.map event, h)
  | (.error e, h) => (.error (.os .wait e), events, h)

/-- Gives the descriptor back. -/
def close (p : Poller) (h : Host) : Host := h.close? p.descriptor

end Poller

end EventLoop

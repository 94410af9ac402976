import EventLoop.Failure
import EventLoop.Log.Level
import EventLoop.Readiness

/-!
# The journal

What a loop and its parts say about their own work.

## Main definitions

* `Notice` — the things that are said, with their levels and wording.
* `Journal` — the notices a level let through, in order.
-/

namespace EventLoop

/-- Something worth saying. -/
inductive Notice
  /-- An event is handed to the root. -/
  | dispatched (e : Event)
  /-- An event of a token that is not registered is passed over. -/
  | stale (e : Event)
  /-- A value came out of the root. -/
  | valueDropped
  /-- A session was stored. -/
  | sessionAdded (token : Token)
  /-- A session was dropped. -/
  | sessionRemoved (token : Token)
  /-- A token is held elsewhere and is never issued again. -/
  | sessionSkipped (token : Token)
  /-- A session could not be registered. -/
  | sessionRejected (token : Token) (cause : Failure)
  /-- The loop was told to stop. -/
  | stopRequested
  /-- The loop starts to run. -/
  | started
  /-- The loop has stopped. -/
  | stopped
  /-- The loop is gone. -/
  | destroyed
  /-- Tokens were registered when the loop went. -/
  | leftOver (count : Nat)
  /-- A token was freed. -/
  | deregistered (token : Token)
  /-- The multiplexer kept the descriptor of a freed token. -/
  | deregisterFailed (token : Token) (cause : Failure)
  /-- A dropped resource could not be taken from the multiplexer. -/
  | dropFailed (cause : Failure)
  /-- Writable interest could not be taken back. -/
  | disarmFailed (token : Token) (cause : Failure)
  /-- Subscribers refused a value. -/
  | publishRefused (count : Nat)
  /-- A text is no endpoint. -/
  | badEndpoint (text : String)
  /-- A socket file was not there any more. -/
  | unlinkFailed (path : String) (errno : Errno)
  deriving DecidableEq, Repr

namespace Notice

/-- How severe a notice is. -/
def level : Notice → Level
  | .dispatched _ | .stale _ | .valueDropped | .sessionAdded _ | .sessionRemoved _
  | .deregistered _ => .trace
  | .sessionSkipped _ | .sessionRejected .. | .stopRequested | .started | .stopped | .destroyed
  | .leftOver _ | .publishRefused _ | .unlinkFailed .. => .debug
  | .deregisterFailed .. | .dropFailed _ | .disarmFailed .. | .badEndpoint _ => .error

/-- The wording of a notice. -/
def text : Notice → String
  | .dispatched e => "dispatch " ++ e.text
  | .stale e => "stale " ++ e.text
  | .valueDropped => "root value dropped"
  | .sessionAdded token => "session " ++ toString token ++ " added"
  | .sessionRemoved token => "session " ++ toString token ++ " removed"
  | .sessionSkipped token =>
    "session token " ++ toString token ++ " is held by the system, skipped"
  | .sessionRejected token cause =>
    "session " ++ toString token ++ " rejected: " ++ cause.describe
  | .stopRequested => "stop requested"
  | .started => "system started"
  | .stopped => "system stopped"
  | .destroyed => "system destroyed"
  | .leftOver count => toString count ++ " token(s) still registered"
  | .deregistered token => "deregistered " ++ toString token
  | .deregisterFailed token cause =>
    "deregister(" ++ toString token ++ ") : " ++ cause.describe
  | .dropFailed cause => "deregister on drop : " ++ cause.describe
  | .disarmFailed token cause =>
    "disarm writable(" ++ toString token ++ ") : " ++ cause.describe
  | .publishRefused count => "broadcast refused by " ++ toString count ++ " subscriber(s)"
  | .badEndpoint text => "parseAddress(" ++ text ++ ") : ERR = " ++ toString Errno.invalid.code
  | .unlinkFailed path errno => "unlink(" ++ path ++ ") : ERR = " ++ toString errno.code

/-- A notice as one line of a log, which ends at a NUL character or a line break. -/
def line (n : Notice) : String :=
  n.level.text ++ " " ++ String.ofList (n.text.toList.takeWhile fun c => c != '\x00' && c != '\n')

end Notice

/-- The notices that were let through. -/
structure Journal where
  /-- The least level that is let through; nothing is, if there is none. -/
  least : Option Level
  /-- The notices, latest first. -/
  notices : List Notice
  deriving DecidableEq, Repr

namespace Journal

/-- A journal that lets nothing through. -/
def silent : Journal := ⟨none, []⟩

/-- Is a level let through? -/
def wants (j : Journal) (level : Level) : Bool :=
  match j.least with
  | some least => decide (least.rank ≤ level.rank)
  | none => false

/-- Adds a notice, if its level is let through. -/
def add (j : Journal) (n : Notice) : Journal :=
  if j.wants n.level then { j with notices := n :: j.notices } else j

/-- The notices in order, and the journal without them. -/
def take (j : Journal) : List Notice × Journal := (j.notices.reverse, { j with notices := [] })

@[simp] theorem least_add (j : Journal) (n : Notice) : (j.add n).least = j.least := by
  unfold add; split <;> rfl

end Journal

end EventLoop

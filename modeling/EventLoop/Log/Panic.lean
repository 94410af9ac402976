import EventLoop.Errno
import EventLoop.Log.Sink

/-!
# Giving up

A broken precondition ends the process: the reason goes to the log, then to standard error
whatever the log is set to, and the process aborts.

## Main definitions

* `Sink.giveUp` — what a process leaves behind when it gives up.
-/

namespace EventLoop

namespace Sink

/-- The log line of a process that gives up. -/
def lastWords (message : String) (errno : Errno) : String :=
  "panic: " ++ message ++ " (errno=" ++ toString errno.code ++ " " ++ errno.text ++ ")"

/-- Logs the reason, writes it to standard error, and lets go of the sink. -/
def giveUp (s : Sink) (place message : String) (errno : Errno) : Sink :=
  let s := s.record .error place (lastWords message errno)
  let s := { s with written := (.error, "panic: " ++ beforeNul message ++ "\n") :: s.written }
  s.shutdown

/-- The reason given when a thread that owns a loop asks for another. -/
def secondSystem : String := "System::init: this thread already owns a System"

end Sink

end EventLoop

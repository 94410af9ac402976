import EventLoop.Log.Level
import EventLoop.Path

/-!
# The log sink

Where log lines go, and from which level on they are wanted. The sink is chosen by a URI;
a URI that is not understood, or a file that cannot be opened, leaves everything as it was.

## Main definitions

* `Target` — standard output, standard error, a file, or nowhere.
* `Sink` — the current target and level, and everything written so far.
* `Sink.open` — chooses another target and level.
* `Sink.write` — writes one line whatever its level; `Sink.record` writes it if wanted.

A line shows a fixed mark in place of the time and the thread, so that it is a function of
what was logged.
-/

namespace EventLoop

/-- Where log lines go. -/
inductive Target
  | output
  | error
  | file (entry : Entry)
  | nowhere
  deriving DecidableEq, Repr

/-- The sink, with what has been written to each target, latest text first. -/
structure Sink where
  /-- Where lines go. -/
  target : Target
  /-- The least level that is wanted. -/
  least : Level
  /-- The text written so far. -/
  written : List (Target × String)

namespace Sink

/-- The sink before anything is chosen: standard error, from `info` on. -/
def initial : Sink := ⟨.error, .info, []⟩

/-- The text before the first NUL character. -/
def beforeNul (s : String) : String := String.ofList (s.toList.takeWhile (· ≠ '\x00'))

/-- The file called `name` in the working directory. -/
def localFile (name : String) : Target := .file ⟨.working, name⟩

/-- The target that writing to an entry is. Two of the device files stand for standard output
and standard error. -/
def targetAt (e : Entry) : Target :=
  if e = .device "stdout" then .output
  else if e = .device "stderr" then .error
  else .file e

/-- The target a URI names. What files there are makes no difference: a path that leads
through one cannot be opened, as one that leads through nothing. -/
def target? (uri : String) : Option Target :=
  if uri = "stdout://" then some .output
  else if uri = "stderr://" then some .error
  else if uri = "discard://" then some .nowhere
  else if uri.startsWith "file://" then
    (Path.appendable (fun _ => false) (String.ofList (uri.toList.drop 7))).toOption.map targetAt
  else none

/-- Chooses target and least level; the answer says whether that could be done. -/
def «open» (s : Sink) (uri : String) (least : Level) : Bool × Sink :=
  match target? uri with
  | some target => (true, { s with target := target, least := least })
  | none => (false, s)

/-- Goes back to standard error, from `info` on. -/
def shutdown (s : Sink) : Sink :=
  { s with target := initial.target, least := initial.least }

/-- Is a level wanted? Nothing is while lines go nowhere. -/
def wants (s : Sink) (level : Level) : Bool :=
  s.target != .nowhere && decide (s.least.rank ≤ level.rank)

/-- The last component of a path, up to a NUL character. -/
def baseName (path : String) : String :=
  (((beforeNul path).splitOn "/").getLast?).getD ""

/-- One line: level, place and message. Place and message end at a NUL character. -/
def line (level : Level) (place message : String) : String :=
  "T " ++ level.column ++ " [tid] " ++ place ++ " " ++ beforeNul message ++ "\n"

/-- Writes a line, whatever its level. -/
def write (s : Sink) (level : Level) (place message : String) : Sink :=
  match s.target with
  | .nowhere => s
  | target => { s with written := (target, line level place message) :: s.written }

/-- Writes a line if its level is wanted. -/
def record (s : Sink) (level : Level) (place message : String) : Sink :=
  if s.wants level then s.write level place message else s

/-- The place of a log line in a file. -/
def place (file : String) (line : Int) : String := baseName file ++ ":" ++ toString line

/-- All text written to one target, in order. -/
def text (s : Sink) (target : Target) : String :=
  String.join ((s.written.reverse.filter (·.1 == target)).map (·.2))

/-- The same sink with nothing written yet. -/
def rewind (s : Sink) : Sink := { s with written := [] }

end Sink

end EventLoop

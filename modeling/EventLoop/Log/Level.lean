/-!
# Log levels

## Main definitions

* `Level` — a severity; only the first five have names.
* `Level.text`, `Level.column` — the name, and the name padded to its column.
-/

namespace EventLoop

/-- The severity of a log line. -/
structure Level where
  /-- Larger is more severe. -/
  rank : Nat
  deriving DecidableEq, Repr

namespace Level

/-- Every step. -/
def trace : Level := ⟨0⟩
/-- Changes of state. -/
def debug : Level := ⟨1⟩
/-- What an operator may want to know. -/
def info : Level := ⟨2⟩
/-- Something looks wrong. -/
def warn : Level := ⟨3⟩
/-- Something failed. -/
def error : Level := ⟨4⟩

/-- The name of a level. -/
def text (l : Level) : String :=
  match l.rank with
  | 0 => "TRACE"
  | 1 => "DEBUG"
  | 2 => "INFO"
  | 3 => "WARN"
  | 4 => "ERROR"
  | _ => "?"

/-- The name, filled up with blanks to five characters. -/
def column (l : Level) : String :=
  l.text ++ String.ofList (List.replicate (5 - l.text.length) ' ')

end Level

end EventLoop

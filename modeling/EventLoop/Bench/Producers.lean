import EventLoop.Bench.Channels
import EventLoop.Bench.Streams

/-!
# Operations on producers and session tables

## Main definitions

* `Op.openGenerator`, `Op.openMono`, `Op.makeSignal` — producers.
* `Op.remaining` — what a producer has left, and its token.
* `Op.openTexts`, `Op.openStreams` — session tables.
* `Op.addText`, `Op.addStream`, `Op.removeSession`, `Op.session`, … — sessions.
-/

namespace EventLoop

namespace Op

/-! ### Producers -/

/-- Makes a registered generator. -/
def openGenerator (name : String) (values : List Int64) : Op (Except Failure (Option Token)) := do
  needSystem
  match ← onLoop (Generator.create values) with
  | .ok g =>
    place name (.generator g)
    return .ok g.evented.token
  | .error e => return .error e

/-- Makes a registered producer of a single value. -/
def openMono (name : String) (v : Int64) : Op (Except Failure (Option Token)) := do
  needSystem
  match ← onLoop (Mono.create v) with
  | .ok m =>
    place name (.mono m)
    return .ok m.evented.token
  | .error e => return .error e

/-- Makes a registered stage of a receiving end; if that fails the receiving end goes. -/
def makeSignal (name source : String) : Op (Except Failure Unit) := do
  needSystem
  let receiver ← receiverNamed source
  modify (·.forget source)
  let (r, e) ← onLoop fun l =>
    let (r, e, l) := (Evented.new receiver .readable).register l
    ((r, e), l)
  match r with
  | .ok () => place name (.signal e)
  | .error _ => modify (·.discard (.signal e))
  return r

/-- A generator. -/
def generatorNamed (name : String) : Op (Generator Int64) := part name fun
  | .generator g => some g
  | _ => none

/-- Adds a value to come; how many are there? -/
def push (name : String) (v : Int64) : Op Nat := do
  let g ← generatorNamed name
  let g ← onHost (g.push v)
  modify (·.put name (.generator g))
  return g.queue.length

/-- What a producer has left, and its token. -/
inductive Remaining
  /-- So many values. -/
  | values (count : Nat) (token : Option Token)
  /-- Its single value, or nothing. -/
  | single (isExhausted : Bool) (token : Option Token)
  /-- Whatever comes through a channel. -/
  | channel (token : Option Token)

/-- What a producer has left. -/
def remaining (name : String) : Op Remaining := part name fun
  | .generator g => some (.values g.queue.length g.evented.token)
  | .mono m => some (.single m.value.isNone m.evented.token)
  | .signal e => some (.channel e.token)
  | _ => none

/-! ### Session tables -/

/-- Makes a table of plain sessions. -/
def openTexts (name : String) (offset : Nat) (policy : Capacity) : Op Unit :=
  place name (.texts (.empty offset policy))

/-- Makes a table of streams. -/
def openStreams (name : String) (offset : Nat) (policy : Capacity) : Op Unit :=
  place name (.streams (.empty offset policy))

/-- A table of plain sessions. -/
def textTable (name : String) : Op (Sessions String) := part name fun
  | .texts s => some s
  | _ => none

/-- The number of sessions in a table. -/
def sessionCount (name : String) : Op Nat := part name fun
  | .texts s => some s.slab.size
  | .streams s => some s.slab.size
  | _ => none

/-- Stores a plain session. -/
def addText (table : String) (v : String) : Op (Except Failure Token) := do
  let s ← textTable table
  needSystem
  let (r, s) ← onLoop fun l =>
    let (r, s, l) := s.add v l
    ((r, s), l)
  modify (·.put table (.texts s))
  return r

/-- Stores a stream. A plain stream gets the interest, a stage keeps its own. -/
def addStream (table source : String) (i : Interest) : Op (Except Failure (Option Token)) := do
  let s ← streamTable table
  needSystem
  let e ← part source fun
    | .socket s => some (.new s i)
    | .stream e => some e
    | _ => none
  modify (·.forget source)
  let (r, s) ← onLoop fun l =>
    let (r, s, l) := s.add e l
    ((r, s), l)
  modify (·.put table (.streams s))
  return r.map fun token => (s.slab.get? token).bind (·.token)

/-- Drops a session. -/
def removeSession (table : String) (token : Token) : Op Unit := do
  match ← resource table with
  | .texts s =>
    let s ← onLoop (s.remove token)
    modify (·.put table (.texts s))
  | .streams s =>
    let s ← onLoop (s.remove token)
    modify (·.put table (.streams s))
  | _ => throw (.resource table)

/-- What can be seen of a session. -/
inductive SessionView
  /-- A plain session. -/
  | text (v : String)
  /-- A stream. -/
  | stream (standing : Standing)

/-- The session with a token. -/
def session (table : String) (token : Token) : Op (Option SessionView) := do
  match ← resource table with
  | .texts s => return (s.slab.get? token).map .text
  | .streams s => return (s.slab.get? token).map fun e => .stream e.standing
  | _ => throw (.resource table)

/-- Replaces a plain session that exists. -/
def setText (table : String) (token : Token) (v : String) : Op Unit := do
  let s ← textTable table
  modify (·.put table (.texts ⟨s.slab.set token v⟩))

/-- What can be seen of a table. -/
structure TableView where
  /-- The tokens of its sessions. -/
  tokens : List Token
  /-- Is it without sessions? -/
  isEmpty : Bool
  /-- The first token that may be issued. -/
  offset : Nat
  /-- The ceiling on sessions. -/
  policy : Capacity

/-- What can be seen of a slot table. -/
def tableView {α : Type} (s : Slab α) : TableView := ⟨s.keys, s.isEmpty, s.offset, s.policy⟩

/-- What can be seen of a session table. -/
def sessions (table : String) : Op TableView := part table fun
  | .texts s => some (tableView s.slab)
  | .streams s => some (tableView s.slab)
  | _ => none

end Op

end EventLoop

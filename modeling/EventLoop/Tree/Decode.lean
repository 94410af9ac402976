import EventLoop.Tree.Basic

/-!
# The text stage

Turns byte buffers into text. Bytes that are no UTF-8 are reported in the output and do not
stop the tree.

## Main definitions

* `decodeStage` — one turn of the stage; it has no state.
* `TextStage` — leaves for trees of nothing but text stages.
-/

namespace EventLoop

/-- The text of some bytes, or why there is none. -/
def decodeText (bytes : List UInt8) : Except Failure String :=
  match Utf8.decode bytes with
  | .ok text => .ok text
  | .error defect => .error (.badText defect)

/-- One turn of the text stage. -/
def decodeStage (input : Reaction (List UInt8)) : Reaction (Except Failure String) :=
  match input with
  | .value bytes => .value (decodeText bytes)
  | other => other.pass

/-- The leaves of a tree of text stages. -/
inductive TextStage : Payload → Payload → Type
  | decode : TextStage .bytes (.outcome .text)

/-- Trees of text stages use no functions. -/
inductive NoFunction : Payload → Payload → Type

/-- What text stages do: nothing outside themselves. -/
def TextStage.behaviour : Behaviour TextStage NoFunction Id where
  react
    | .decode, input => (decodeStage input, .decode)
  apply f _ := nomatch f

/-- A tree of text stages. -/
abbrev TextTree := Tree TextStage NoFunction

namespace TextTree

/-- The stage itself. -/
def plain : TextTree .bytes (.outcome .text) := .leaf .decode

/-- The stage behind one that passes everything on. -/
def chained : TextTree .bytes (.outcome .text) := .chain .consume plain

/-- Two stages side by side. -/
def doubled : TextTree .bytes (.outcome .text) := .both none .same [] plain plain

/-- One stage for each alternative. -/
def routed : TextTree (.choice .bytes .bytes) (.outcome .text) := .either [] plain plain

/-- The route of a buffer: the first stage for an even number of bytes. -/
def route : Reaction (List UInt8) → Reaction (List UInt8 ⊕ List UInt8) :=
  Reaction.map fun bytes => if bytes.length % 2 = 0 then .inl bytes else .inr bytes

/-- What a tree answers to each of a list of inputs. -/
def run {p : Payload} (t : TextTree p (.outcome .text)) :
    List (Reaction p.Val) → List (Reaction (Except Failure String))
  | [] => []
  | input :: rest =>
    let (out, t) := Tree.react (m := Id) TextStage.behaviour t input
    out :: run t rest

end TextTree

end EventLoop

import EventLoop.Bench.Basic

/-!
# Operations on descriptors and files

## Main definitions

* `Op.openNotifier`, `Op.setNotifier`, `Op.clearNotifier`, `Op.moveNotifier` — flags.
* `Op.openFile`, `Op.supersede` — regular files.
* `Op.starve`, `Op.feed` — how many more descriptors can be opened.
* `Op.drop` — a resource, or a tree, goes.
* `Op.unlink`, `Op.hasFile` — socket files.
-/

namespace EventLoop

namespace Op

/-- Puts a resource under a name; what was there goes. -/
def place (name : String) (x : Resource) : Op Unit := modify (·.place name x)

/-- Is the descriptor of a resource readable? -/
def isReadable (name : String) : Op Bool := do
  let x ← resource name
  return (← get).host.isReadable x.descriptor

/-- A flag, whether it has a registration or not. -/
def notifierNamed (name : String) : Op Notifier := part name fun
  | .notifier n => some n
  | .eventedNotifier e => some e.inner
  | _ => none

/-- Makes a flag. -/
def openNotifier (name : String) : Op Unit := do
  place name (.notifier (← onHost Notifier.create))

/-- Sets a flag some number of times; is it set afterwards? -/
def setNotifier (name : String) (times : Nat) : Op Bool := do
  let n ← notifierNamed name
  modify fun r => r.withHost ((List.range times).foldl (fun h _ => n.set h) r.host)
  return n.isSet (← get).host

/-- Clears a flag some number of times; is it set afterwards? -/
def clearNotifier (name : String) (times : Nat) : Op Bool := do
  let n ← notifierNamed name
  modify fun r => r.withHost ((List.range times).foldl (fun h _ => n.clear h) r.host)
  return n.isSet (← get).host

/-- Moves one flag to the place of another. Has the first a descriptor afterwards, and is the
second set? -/
def moveNotifier (source target : String) : Op (Bool × Bool) := do
  let plain (x : Resource) : Option Notifier := match x with
    | .notifier n => some n
    | _ => none
  let moved ← part source plain
  let old ← part target plain
  if source = target then
    return (moved.descriptor.isSome, moved.isSet (← get).host)
  else
    modify fun r => (r.put source (.notifier .hollow)).put target (.notifier moved)
    modify fun r => r.withHost (old.close r.host)
    return (false, moved.isSet (← get).host)

/-- Opens a regular file. -/
def openFile (name : String) : Op Unit := do
  let fd ← onHost fun h =>
    match h.allocate .file with
    | .ok (fd, h) => (some fd, h)
    | .error _ => (none, h)
  place name (.file fd)

/-- Lets a regular file take over the descriptor of a resource. -/
def supersede (name : String) : Op Unit := do
  match (← resource name).descriptor with
  | some fd => modify fun r => r.withHost (r.host.supersede fd)
  | none => return ()

/-- From now on only so many more descriptors can be opened. -/
def starve (allow : Nat) : Op Unit :=
  modify fun r => r.withHost { r.host with spare := some allow }

/-- Descriptors can be opened without limit again. -/
def feed : Op Unit := modify fun r => r.withHost { r.host with spare := none }

/-- Drops whatever has this name; how many registrations are left? -/
def drop (name : String) : Op (Option Nat) := do
  modify fun r => (r.dropRoot name).drop name
  return (← get).registered?

/-- Removes a socket file; was there one? -/
def unlink (path : String) : Op Bool := onHost fun h =>
  match h.unlink path with
  | .ok h => (true, h)
  | .error _ => (false, h)

/-- Is there a file at a path? -/
def hasFile (path : String) : Op Bool := return (← get).host.hasFile path

end Op

end EventLoop

import EventLoop.Host.Basic

/-!
# Multiplexers

A multiplexer watches descriptors and reports their readiness by token.

## Main definitions

* `Control` — the three ways to change what is watched.
* `Host.control` — applies one of them, or refuses it.
* `Host.readySet` — what a live multiplexer has to report, in the order of the tokens.
* `Host.await` — one wait, live or scripted.
-/

namespace EventLoop

/-- A change of what a multiplexer watches. -/
inductive Control
  /-- Watch a descriptor. -/
  | add (token : Token) (mask : Mask)
  /-- Report a watched descriptor differently. -/
  | modify (token : Token) (mask : Mask)
  /-- Watch a descriptor no longer. -/
  | remove
  deriving DecidableEq, Repr

namespace Control

/-- Applies a change to a list of watches. -/
def apply (watches : List Watch) (fd : Nat) : Control → Except Errno (List Watch)
  | .add token mask =>
    if watches.any (·.descriptor == fd) then .error .alreadyExists
    else .ok (watches ++ [⟨fd, token, mask⟩])
  | .modify token mask =>
    if watches.any (·.descriptor == fd) then
      .ok (watches.map fun w => if w.descriptor = fd then ⟨fd, token, mask⟩ else w)
    else .error .noEntry
  | .remove =>
    if watches.any (·.descriptor == fd) then .ok (watches.filter (·.descriptor != fd))
    else .error .noEntry

end Control

namespace Host

/-- What a multiplexer watches. -/
def watches (h : Host) (poller : Option Nat) : List Watch :=
  match h.objectOf? poller with
  | some (.multiplexer watches) => watches
  | _ => []

/-- Changes what a multiplexer watches. Both descriptors must be open; a regular file is
always ready and cannot be watched, and no multiplexer watches itself. -/
def control (h : Host) (poller fd : Option Nat) (c : Control) : Except Errno Host :=
  match poller, fd with
  | some p, some f =>
    match h.object? p, h.object? f with
    | none, _ | _, none => .error .badDescriptor
    | some _, some .file => .error .notPermitted
    | some (.multiplexer watches), some _ =>
      if p = f then .error .invalid
      else (c.apply watches f).map fun watches => h.setObject p (.multiplexer watches)
    | some _, some _ => .error .invalid
  | _, _ => .error .badDescriptor

/-- The report of one watch, if there is any. -/
def reportOf (h : Host) (w : Watch) : Option (Token × Mask) :=
  let m := (h.readiness (some w.descriptor)).inter (w.mask.union .always)
  if m.isEmpty then none else some (w.token, m)

/-- What a live multiplexer has to report. -/
def readySet (h : Host) (poller : Option Nat) : List (Token × Mask) :=
  ((h.watches poller).filterMap h.reportOf).mergeSort (fun a b => a.1 ≤ b.1)

/-- After so many endless waits without an answer a live multiplexer gives up. -/
def patience : Nat := 4

/-- One wait for at most `most` reports. A scripted wait with no answer left fails, and so
does the last of too many endless waits in a row that found nothing. There is no batch of fewer
than no reports, and a live multiplexer is not even asked for none. -/
def await (h : Host) (source : Source) (poller : Option Nat) (most timeout : Int) :
    Except Errno (List (Token × Mask)) × Host :=
  match source with
  | .scripted =>
    let h := { h with waits := (most, timeout) :: h.waits }
    match h.script with
    | [] => (.error .badDescriptor, h)
    | .fail errno :: rest => (.error errno, { h with script := rest })
    | .batch reports :: rest =>
      let h := { h with script := rest }
      if most < 0 then (.error .invalid, h) else (.ok (reports.take most.toNat), h)
  | .live =>
    if most ≤ 0 then (.error .invalid, h)
    else
      match h.objectOf? poller with
      | none => (.error .badDescriptor, h)
      | some (.multiplexer _) =>
        match (h.readySet poller).take most.toNat with
        | [] =>
          if timeout < 0 then
            if h.quiet + 1 < patience then (.ok [], { h with quiet := h.quiet + 1 })
            else (.error .badDescriptor, { h with quiet := 0 })
          else (.ok [], h)
        | reports => (.ok reports, { h with quiet := 0 })
      | some _ => (.error .invalid, h)

end Host

end EventLoop

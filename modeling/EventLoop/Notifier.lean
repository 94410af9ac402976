import EventLoop.Host.Basic

/-!
# Notifiers

A readiness flag that a multiplexer can watch: readable from `set` to `clear`, however
often it is set.

## Main definitions

* `Notifier` — the flag, by its descriptor. It has none if none could be opened.
* `Notifier.create`, `Notifier.set`, `Notifier.clear`, `Notifier.close`.
-/

namespace EventLoop

/-- A readiness flag. -/
structure Notifier where
  /-- The descriptor, if one could be opened. -/
  descriptor : Option Nat
  deriving DecidableEq, Repr

namespace Notifier

/-- A flag without a descriptor, never readable. -/
def hollow : Notifier := ⟨none⟩

/-- A new flag, not set. -/
def create (h : Host) : Notifier × Host :=
  match h.allocate (.counter .zero) with
  | .ok (fd, h) => (⟨some fd⟩, h)
  | .error _ => (hollow, h)

/-- Adds `n` to the counter of the flag. -/
def signal (n : Notifier) (amount : Nat) (h : Host) : Host :=
  match n.descriptor with
  | none => h
  | some fd =>
    match h.object? fd with
    | some (.counter c) => h.setObject fd (.counter (c.signal amount).2)
    | _ => h

/-- Sets the flag. -/
def set (n : Notifier) (h : Host) : Host := n.signal 1 h

/-- Clears the flag. -/
def clear (n : Notifier) (h : Host) : Host :=
  match n.descriptor with
  | none => h
  | some fd =>
    match h.object? fd with
    | some (.counter c) => h.setObject fd (.counter c.drain.2)
    | _ => h

/-- Is the flag set? -/
def isSet (n : Notifier) (h : Host) : Bool := h.isReadable n.descriptor

/-- Gives the descriptor back. -/
def close (n : Notifier) (h : Host) : Host := h.close? n.descriptor

end Notifier

end EventLoop

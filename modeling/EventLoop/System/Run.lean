import EventLoop.Reaction
import EventLoop.System.Basic

/-!
# Running the loop

Waits for events and hands them to a root reactor, one batch after another.

A root is any state `ρ` with a turn that may also act on the loop: register, deregister, or
tell it to stop. A value coming out of the root has no consumer. It is dropped, and the root
gets another turn without input until no value comes out, so that nothing produced within
the tree is left behind.

## Main definitions

* `Turn ρ` — a step that acts on a root's state and the loop.
* `Turn.dispatch` — one event and the turns that follow it.
* `Turn.poll` — one wait and its batch. Reports for tokens that are not registered at their
  turn are passed over; the loop's own token stands for its control channel.
* `Turn.start` — polls until told to stop, or until a wait fails.

The number of turns after one event and of polls in one run are bounded by arguments. A
`false` or `none` says that the bound was reached, and nothing is done after that.
-/

namespace EventLoop

/-- A step that acts on the state of a root and on the loop. -/
abbrev Turn (ρ : Type) := StateM (ρ × Loop)

namespace Turn

variable {ρ α β : Type}

/-- The loop as it is now. -/
def loop : Turn ρ Loop := do return (← get).2

/-- Changes the loop. -/
def modifyLoop (f : Loop → Loop) : Turn ρ Unit := modify fun (r, l) => (r, f l)

/-- Acts on the loop. -/
def onLoop (f : Loop → α × Loop) : Turn ρ α := modifyGet fun (r, l) =>
  let (a, l) := f l
  (a, (r, l))

/-- Says something. -/
def note (n : Notice) : Turn ρ Unit := modifyLoop (·.note n)

/-- Gives the root turns without input, at most so many, until no value comes out. -/
def redrive (react : Reaction α → Turn ρ (Reaction β)) : Nat → Turn ρ Bool
  | 0 => return false
  | left + 1 => do
    note .valueDropped
    match ← react .idle with
    | .value _ => redrive react left
    | _ => return true

/-- Hands an event to the root and lets it finish. -/
def dispatch (react : Reaction α → Turn ρ (Reaction β)) (redrives : Nat) (e : Event) :
    Turn ρ Bool := do
  match ← react (.event e) with
  | .value _ => redrive react redrives
  | _ => return true

/-- Handles one event of a batch; says whether the root got it. -/
def handle (react : Reaction α → Turn ρ (Reaction β)) (redrives : Nat) (e : Event) :
    Turn ρ (Option Bool) := do
  if e.token = systemToken then
    modifyLoop (·.drainControl)
    return some false
  else if !(← loop).system.isRegistered e.token then
    note (.stale e)
    return some false
  else
    note (.dispatched e)
    return if ← dispatch react redrives e then some true else none

/-- Handles the events of a batch; says how many the root got. -/
def handleAll (react : Reaction α → Turn ρ (Reaction β)) (redrives : Nat) :
    List Event → Turn ρ (Option Nat)
  | [] => return some 0
  | e :: rest => do
    match ← handle react redrives e with
    | none => return none
    | some got =>
      return (← handleAll react redrives rest).map fun count => if got then count + 1 else count

/-- One wait of the loop. -/
def await (timeout : Int) : Turn ρ (Except Failure (List Event)) := onLoop fun l =>
  match l.system.poller.wait [] l.system.config.maxEvents timeout l.host with
  | (.ok _, events, host) => (.ok events, { l with host := host })
  | (.error e, _, host) => (.error e, { l with host := host })

/-- Waits once and handles the batch. -/
def poll (react : Reaction α → Turn ρ (Reaction β)) (redrives : Nat) (timeout : Int) :
    Turn ρ (Option (Except Failure Nat)) := do
  match ← await timeout with
  | .error e => return some (.error e)
  | .ok events => return (← handleAll react redrives events).map .ok

/-- Polls, at most so many times, until the loop was told to stop or a wait fails. -/
def keepPolling (react : Reaction α → Turn ρ (Reaction β)) (redrives : Nat) :
    Nat → Turn ρ (Option (Except Failure Unit))
  | 0 => return none
  | left + 1 => do
    if (← loop).system.stopping then
      note .stopped
      return some (.ok ())
    else
      match ← poll react redrives (← loop).system.config.timeout with
      | none => return none
      | some (.error e) => return some (.error e)
      | some (.ok _) => keepPolling react redrives left

/-- Runs the loop. What was heard before it started is forgotten. -/
def start (react : Reaction α → Turn ρ (Reaction β)) (redrives polls : Nat) :
    Turn ρ (Option (Except Failure Unit)) := do
  modifyLoop fun l => { l with system := { l.system with stopping := false } }
  note .started
  keepPolling react redrives polls

end Turn

end EventLoop

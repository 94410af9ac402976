import EventLoop.Bench.Basic

/-!
# Turns on a bench

What the leaves and functions of a bench's trees do to the resources they stand for.

## Main definitions

* `behaviour` — one turn of each kind of leaf, one application of each kind of function.
* `Stage.react`, `Leaf.react`, `Mapping.apply` — the cases of it.
* `sendBack` — what an echo does with a stream that may have something to read.

A leaf whose resource is gone gives no output.
-/

namespace EventLoop

/-! ### Stages -/

namespace Stage

/-- Publishes a value to the subscribers of a broadcast. -/
def publishTo (key : Nat) (v : Int64) : Act (Except Failure Unit) := do
  match (← get).bus? key with
  | none => return .ok ()
  | some b =>
    modifyGet fun r =>
      let (out, b, channels, h) := b.publish v r.bench.channels r.host
      (out, (r.withChannels (channels, h)).putBus key b)

/-- One turn of a publishing stage: it answers every value with the outcome. -/
def publishTurn (key : Nat) (input : Reaction Int64) : Act (Reaction (Except Failure Unit)) :=
  match input with
  | .value v => return .value (← publishTo key v)
  | other => return other.pass

/-- One turn of a stage. -/
def react : {p q : Payload} → Stage p q → Reaction p.Val → Act (Reaction q.Val)
  | _, _, .generator name, input => modifyGet fun r =>
    match r.resource? name with
    | some (.generator g) =>
      let (out, g, h) := g.react input r.host
      (out, (r.withHost h).put name (.generator g))
    | _ => (.idle, r)
  | _, _, .mono name, input => modifyGet fun r =>
    match r.resource? name with
    | some (.mono m) =>
      let (out, m, h) := m.react input r.host
      (out, (r.withHost h).put name (.mono m))
    | _ => (.idle, r)
  | _, _, .signal name, input => modifyGet fun r =>
    match r.resource? name with
    | some (.signal e) =>
      let (out, p) := e.receive input r.bench.channels r.host
      (out, r.withChannels p)
    | _ => (.idle, r)
  | _, _, .stream name, input => modifyGet fun r =>
    match r.resource? name with
    | some (.stream e) =>
      let (out, e, l) := e.wake input r.loop
      (out, (r.withLoop l).put name (.stream e))
    | _ => (.idle, r)
  | _, _, .acceptor name, input => modifyGet fun r =>
    match r.resource? name with
    | some (.acceptor e) =>
      let (out, e, l) := e.listen input r.loop
      (out, (r.withLoop l).put name (.acceptor e))
    | _ => (.idle, r)
  | _, _, .publish key, input => publishTurn key input

end Stage

/-! ### Echoes -/

namespace Echo

/-- How many bytes an echo reads at once. -/
def chunk : Nat := 256

/-- Sends back what there is to read, at most so many chunks; says whether the stream has
ended. -/
def sendBack : Nat → Evented Socket → Loop → Bool × Evented Socket × Loop
  | 0, e, l => (false, e, l)
  | left + 1, e, l =>
    if e.readable then
      match e.read chunk l with
      | (.error _, e, l) => (false, e, l)
      | (.ok [], e, l) => (true, e, l)
      | (.ok bytes, e, l) =>
        let (_, e, l) := e.write bytes l
        sendBack left e l
    else (false, e, l)

/-- Handles an event of a session that exists: the table and the loop afterwards. -/
def serve (s : Sessions (Evented Socket)) (e : Evented Socket) (event : Event) (l : Loop) :
    Sessions (Evented Socket) × Loop :=
  match e.wake (.event event) l with
  | (.value (), e, l) =>
    match sendBack (l.host.available e.inner.descriptor + 1) e l with
    | (false, e, l) => (⟨s.slab.set event.token e⟩, l)
    | (true, e, l) => Sessions.remove ⟨s.slab.set event.token e⟩ event.token l
  | (_, e, l) => (⟨s.slab.set event.token e⟩, l)

/-- One turn of an echo: events of its sessions end here, others go on. -/
def react (table : String) (input : Reaction Unit) : Act (Reaction Unit) := modifyGet fun r =>
  match input, r.resource? table with
  | .event event, some (.streams s) =>
    match s.slab.get? event.token with
    | none => (.event event, r)
    | some e =>
      let (s, l) := serve s e event r.loop
      (.idle, (r.withLoop l).put table (.streams s))
  | _, _ => (.idle, r)

end Echo

/-! ### Leaves and functions -/

/-- One turn of a leaf, and the leaf afterwards. -/
def Leaf.react {p q : Payload} (l : Leaf p q) (input : Reaction p.Val) :
    Act (Reaction q.Val × Leaf p q) :=
  match l, input with
  | .stage s, input => return (← s.react input, .stage s)
  | .mock m, input => do
    modify (·.record (.turn m.name p input))
    return ((m.action input).perform input, .mock m)
  | .play m, input => do
    modify (·.record (.turn m.name p input))
    match m.actions with
    | [] => return (.idle, .play m)
    | a :: rest => return (a.perform input, .play { m with actions := rest })
  | .echo table, input => return (← Echo.react table input, .echo table)

/-- A text up to its last colon, with a star for what comes after it. -/
def maskPort (name : String) : String :=
  match (name.toList.reverse.dropWhile (· != ':')).reverse with
  | [] => name
  | host => String.ofList (host ++ ['*'])

/-- Keeps an accepted stream as a resource; gives the name of its peer, without the port. -/
def adoptConnection (c : Connection) : Act String := do
  let n := (← get).bench.adopted
  modify fun r => { r with bench := { r.bench with adopted := n + 1 } }
  modify (·.place ("conn" ++ toString n) (.socket c.socket))
  return maskPort c.peer

namespace Transform

/-- The value of a function. -/
def value : {p q : Payload} → Transform p q → p.Val → q.Val
  | _, _, .const w, _ => w
  | p, _, .words, v => p.words v
  | p, _, .length, v => Int64.ofNat (p.words v).utf8ByteSize
  | _, _, .append s, v => v ++ s
  | _, _, .add n, v => v + n
  | _, _, .parity, v => if v % 2 = 0 then .inl v else .inr v
  | _, _, .ignore, _ => ()
  | _, _, .stopOn _, _ => ()

/-- Does a function tell the loop to stop when it is applied to this value? -/
def stops : {p q : Payload} → Transform p q → p.Val → Bool
  | p, _, .stopOn w, v => p.same w v
  | _, _, _, _ => false

end Transform

/-- One application of a function. -/
def Mapping.apply {p q : Payload} (f : Mapping p q) (v : p.Val) : Act q.Val :=
  match f, v with
  | .recorded name t, v => do
    modify (·.record (.applied name p v))
    if t.stops v then modify fun r => r.withLoop r.loop.stop.2
    return t.value v
  | .adopt, c => adoptConnection c
  | .verdict, outcome => return outcomeText outcome

/-- What the trees of a bench do. -/
def behaviour : Behaviour Leaf Mapping Act where
  react l input := l.react input
  apply f v := f.apply v

end EventLoop

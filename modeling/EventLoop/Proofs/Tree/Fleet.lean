import EventLoop.Net.Stream
import EventLoop.Proofs.Host.Backlog
import EventLoop.Proofs.Tree.Conduct
import EventLoop.Proofs.Tree.Producers
import EventLoop.Tree.Decode
import Mathlib.Logic.Function.Basic

/-!
# Trees of stages

A tree whose leaves are producers, streams, listeners, broadcasts and text stages,
and whose functions may do anything.  What the leaves stand for is kept beside the
tree, by name.  A broadcast has the channels that it feeds for itself, so it pushes
into no producer of the tree.

## Main definitions

* `Station` — a resource with a registration: a producer, a stream or a listener.
* `Station.supply` — how many values or pending connections it has.
* `Cast` — a broadcast and the channels of its subscribers.
* `Fleet` — stations and broadcasts by name; `Fleet.behaviour` is what the leaves do.
* `Fleet.Eases` — nothing has arrived, and no station has got another token.

## Main results

* `Station.react_spec` — **a turn gives a value of the supply, or one for an event of its own.**
* `Fleet.Eases.react` — a turn of a leaf makes nothing arrive anywhere.
* `Fleet.react_le` — a leaf gives no more than is due.
-/

namespace EventLoop

/-! ### Stations -/

/-- The token a producer is registered under. -/
def Producer.token {α : Type} : Producer α → Option Token
  | .generator g => g.evented.token
  | .mono m => m.evented.token
  | .signal e _ => e.token

/-- A resource with a registration, which gives values to a tree. -/
inductive Station : Payload → Type
  /-- A source of values. -/
  | producer {p : Payload} (x : Producer p.Val) : Station p
  /-- A stream, which tells of its events. -/
  | stream (e : Evented Socket) : Station .unit
  /-- A listener, which accepts connections. -/
  | listener (e : Evented Listener) : Station .connection

namespace Station

variable {p : Payload}

/-- One turn. -/
def react : Station p → Reaction Unit → Loop → Reaction p.Val × Station p × Loop
  | .producer x, input, l =>
    ((x.react input l.host).1, .producer (x.react input l.host).2.1,
      { l with host := (x.react input l.host).2.2 })
  | .stream e, input, l =>
    ((e.wake input l).1, .stream (e.wake input l).2.1, (e.wake input l).2.2)
  | .listener e, input, l =>
    ((e.listen input l).1, .listener (e.listen input l).2.1, (e.listen input l).2.2)

/-- The token it is registered under. -/
def token : Station p → Option Token
  | .producer x => x.token
  | .stream e => e.token
  | .listener e => e.token

/-- How many values are still to come, or connections to be accepted. -/
def supply : Station p → Host → Nat
  | .producer x, _ => x.queue.length
  | .stream _, _ => 0
  | .listener e, h => h.backlog e.inner.descriptor

/-- How many values there may be until it has had a turn with an event, if there is one: an event
of its own may be one more. -/
def due (x : Station p) (e : Option Event) (h : Host) : Nat :=
  x.supply h + if ∃ event ∈ e, x.token = some event.token then 1 else 0

end Station

/-! ### One turn of a station -/

/-- A turn keeps the registration, and of the host it changes its own flag at most. -/
theorem Generator.frame_react {α : Type} (g : Generator α) (input : Reaction Unit) (h : Host) :
    (g.react input h).2.1.evented = g.evented ∧
      ((g.react input h).2.2 = h ∨ (g.react input h).2.2 = g.evented.inner.clear h) := by
  unfold react
  cases g.queue with
  | nil =>
    cases input with
    | value _ => exact ⟨rfl, .inl rfl⟩
    | idle => exact ⟨rfl, .inr rfl⟩
    | event e =>
      dsimp only
      split
      · exact ⟨rfl, .inr rfl⟩
      · exact ⟨rfl, .inl rfl⟩
  | cons v rest =>
    -- the flag is cleared with the last value
    have hyield : (if rest.isEmpty then g.evented.inner.clear h else h) = h ∨
        (if rest.isEmpty then g.evented.inner.clear h else h) = g.evented.inner.clear h := by
      split
      · exact .inr rfl
      · exact .inl rfl
    cases input with
    | value _ => exact ⟨rfl, .inl rfl⟩
    | idle => exact ⟨rfl, hyield⟩
    | event e =>
      dsimp only
      split
      · exact ⟨rfl, hyield⟩
      · exact ⟨rfl, .inl rfl⟩

/-- A turn keeps the registration, and of the host it changes its own flag at most. -/
theorem Mono.frame_react {α : Type} (m : Mono α) (input : Reaction Unit) (h : Host) :
    (m.react input h).2.1.evented = m.evented ∧
      ((m.react input h).2.2 = h ∨ (m.react input h).2.2 = m.evented.inner.clear h) := by
  unfold react
  cases input with
  | value _ => exact ⟨rfl, .inl rfl⟩
  | idle => exact ⟨rfl, .inl rfl⟩
  | event e =>
    dsimp only
    split
    · cases m.value <;> exact ⟨rfl, .inr rfl⟩
    · exact ⟨rfl, .inl rfl⟩

/-- A turn of a receiver takes from its channel at most, and of the host it changes the bell of the
channel at most. -/
theorem Evented.frame_receive {α : Type} (e : Evented Receiver) (input : Reaction Unit)
    (t : Channels α) (h : Host) :
    (e.receive input t h).2 = (t, h) ∨ ∃ c c', t.get? e.inner.channel = some c ∧
      c'.bell = c.bell ∧ (e.receive input t h).2.1 = t.set e.inner.channel c' ∧
      ((e.receive input t h).2.2 = h ∨ (e.receive input t h).2.2 = c.bell.clear h) := by
  -- taking a value changes one channel, and clears its bell with the last one
  have htake : (e.receive .idle t h).2 = (t, h) ∨ ∃ c c', t.get? e.inner.channel = some c ∧
      c'.bell = c.bell ∧ (e.receive .idle t h).2.1 = t.set e.inner.channel c' ∧
      ((e.receive .idle t h).2.2 = h ∨ (e.receive .idle t h).2.2 = c.bell.clear h) := by
    unfold receive Channels.receive
    cases hc : t.get? e.inner.channel with
    | none => exact .inl rfl
    | some c =>
      dsimp only
      cases hr : c.receive h with
      | error e => exact .inl rfl
      | ok r =>
        obtain ⟨v, c', h'⟩ := r
        obtain ⟨rest, -, rfl, rfl⟩ := Channel.receive_ok hr
        refine .inr ⟨c, { c with queue := rest }, rfl, rfl, rfl, ?_⟩
        dsimp only
        split
        · exact .inr rfl
        · exact .inl rfl
  cases input with
  | value _ => exact .inl rfl
  | idle => exact htake
  | event event =>
    by_cases howns : e.owns event = true
    · have hown : e.receive (.event event) t h = e.receive .idle t h := by
        simp only [receive, howns, if_true]
      rw [hown]
      exact htake
    · simp [receive, howns]

theorem Evented.lull_receive {α : Type} (e : Evented Receiver) (input : Reaction Unit)
    (t : Channels α) (h : Host) : h.Lull (e.receive input t h).2.2 := by
  rcases e.frame_receive input t h with hsame | ⟨c, -, -, -, -, hhost | hhost⟩
  · rw [hsame]
    exact .refl h
  · rw [hhost]
    exact .refl h
  · rw [hhost]
    exact c.bell.lull_clear h

namespace Producer

variable {α : Type}

theorem token_react (x : Producer α) (input : Reaction Unit) (h : Host) :
    (x.react input h).2.1.token = x.token := by
  cases x with
  | generator g => exact congrArg Evented.token (g.frame_react input h).1
  | mono m => exact congrArg Evented.token (m.frame_react input h).1
  | signal e t => rfl

theorem lull_react (x : Producer α) (input : Reaction Unit) (h : Host) :
    h.Lull (x.react input h).2.2 := by
  -- clearing a notifier announces nothing
  have hflag : ∀ (n : Notifier) {h' : Host}, h' = h ∨ h' = n.clear h → h.Lull h' := by
    rintro n h' (rfl | rfl)
    · exact .refl _
    · exact n.lull_clear h
  cases x with
  | generator g => exact hflag _ (g.frame_react input h).2
  | mono m => exact hflag _ (m.frame_react input h).2
  | signal e t => exact e.lull_receive input t h

/-- A value that comes out is one less to come. -/
theorem length_react (x : Producer α) (input : Reaction Unit) (h : Host) :
    (x.react input h).1.values.length + (x.react input h).2.1.queue.length = x.queue.length := by
  rw [← List.length_append, x.values_react input h]

end Producer

namespace Evented

/-- A stream keeps its token, and gives a value for its own events only. -/
theorem wake_spec (e : Evented Socket) (input : Reaction Unit) (l : Loop) :
    (e.wake input l).2.1.token = e.token ∧ l.host.Lull (e.wake input l).2.2.host ∧
      (e.wake input l).1.values.length
        ≤ if ∃ event ∈ input.event?, e.token = some event.token then 1 else 0 := by
  cases input with
  | value _ => exact ⟨rfl, .refl _, Nat.zero_le _⟩
  | idle => exact ⟨rfl, .refl _, Nat.zero_le _⟩
  | event event =>
    obtain ⟨hown, -, htoken, hlull⟩ := e.accept_spec event l
    unfold wake
    dsimp only
    rcases hr : e.accept event l with ⟨own, e', l'⟩
    rw [hr] at hown htoken hlull
    cases own with
    | false => exact ⟨htoken, hlull, Nat.zero_le _⟩
    | true =>
      -- the stream yields its event, and only under its own token
      have hevent : e.token = some event.token := beq_iff_eq.mp hown.symm
      refine ⟨htoken, hlull, ?_⟩
      rw [if_pos ⟨event, rfl, hevent⟩]
      exact Nat.le_refl 1

/-- What a turn of a listener does: it keeps resource and token, no connection arrives, and one
that it gives waits no longer. -/
structure Listens (e : Evented Listener) (l : Loop) (out : Reaction Connection)
    (e' : Evented Listener) (l' : Loop) : Prop where
  inner_eq : e'.inner = e.inner
  token_eq : e'.token = e.token
  lull : l.host.Lull l'.host
  taken : out.values.length + l'.host.backlog e.inner.descriptor
    ≤ l.host.backlog e.inner.descriptor

theorem Listens.of_lull {e e' : Evented Listener} {l l' : Loop} {out : Reaction Connection}
    (hinner : e'.inner = e.inner) (htoken : e'.token = e.token) (hlull : l.host.Lull l'.host)
    (hout : out.isValue = false) : Listens e l out e' l' where
  inner_eq := hinner
  token_eq := htoken
  lull := hlull
  taken := by
    rw [Reaction.values_eq_nil_iff.mpr hout, List.length_nil, Nat.zero_add]
    exact hlull _

theorem listens_idle (e : Evented Listener) (l : Loop) :
    Listens e l (e.listen .idle l).1 (e.listen .idle l).2.1 (e.listen .idle l).2.2 := by
  unfold listen
  dsimp only
  split
  · rw [Listener.accept_eq]
    cases ha : l.host.calm.accept e.inner.descriptor with
    | error errno => exact .of_lull rfl rfl (.calm _) rfl
    | ok r =>
      obtain ⟨⟨fd, peer⟩, h⟩ := r
      -- one connection yielded, one less waiting
      obtain ⟨hlull, hone⟩ := Host.accept_ok ha
      refine ⟨rfl, rfl, (Host.Lull.calm _).trans hlull, ?_⟩
      show 1 + h.backlog e.inner.descriptor ≤ l.host.calm.backlog e.inner.descriptor
      omega
  · exact .of_lull rfl rfl (.refl _) rfl

theorem listens (e : Evented Listener) (input : Reaction Unit) (l : Loop) :
    Listens e l (e.listen input l).1 (e.listen input l).2.1 (e.listen input l).2.2 := by
  cases input with
  | value _ => exact .of_lull rfl rfl (.refl _) rfl
  | idle => exact e.listens_idle l
  | event event =>
    obtain ⟨-, hinner, htoken, hlull⟩ := e.accept_spec event l
    rcases hr : e.accept event l with ⟨own, e', l'⟩
    rw [hr] at hinner htoken hlull
    cases own with
    | false =>
      -- an event of another source: no connection is asked for
      rw [listen_of_foreign hr]
      exact .of_lull hinner htoken hlull rfl
    | true =>
      have hidle := e'.listens_idle l'
      rw [listen_of_own hr]
      refine ⟨hidle.inner_eq.trans hinner, hidle.token_eq.trans htoken,
        hlull.trans hidle.lull, ?_⟩
      have htaken := hidle.taken
      rw [hinner] at htaken
      exact Nat.le_trans htaken (hlull _)

end Evented

namespace Station

variable {p : Payload}

/-- **A turn gives a value of the supply, or one for an event of its own.**  It keeps the token,
and no connection arrives. -/
theorem react_spec (x : Station p) (input : Reaction Unit) (l : Loop) :
    (x.react input l).2.1.token = x.token ∧ l.host.Lull (x.react input l).2.2.host ∧
      (x.react input l).2.1.supply (x.react input l).2.2.host ≤ x.supply l.host ∧
      (x.react input l).1.values.length
          + (x.react input l).2.1.supply (x.react input l).2.2.host ≤ x.due input.event? l.host := by
  cases x with
  | producer x =>
    have hlength := x.length_react input l.host
    refine ⟨x.token_react input l.host, x.lull_react input l.host, ?_, ?_⟩
    · show (x.react input l.host).2.1.queue.length ≤ x.queue.length
      omega
    · show (x.react input l.host).1.values.length + (x.react input l.host).2.1.queue.length ≤
        x.queue.length + _
      omega
  | stream e =>
    obtain ⟨htoken, hlull, hvalues⟩ := e.wake_spec input l
    refine ⟨htoken, hlull, Nat.le_refl 0, ?_⟩
    show (e.wake input l).1.values.length + 0 ≤ 0 + _
    rw [Nat.zero_add]
    exact hvalues
  | listener e =>
    have hlistens := e.listens input l
    refine ⟨hlistens.token_eq, hlistens.lull, ?_, ?_⟩
    · show (e.listen input l).2.2.host.backlog (e.listen input l).2.1.inner.descriptor ≤ _
      rw [hlistens.inner_eq]
      exact hlistens.lull _
    · show (e.listen input l).1.values.length
        + (e.listen input l).2.2.host.backlog (e.listen input l).2.1.inner.descriptor ≤ _
      rw [hlistens.inner_eq]
      exact Nat.le_trans hlistens.taken (Nat.le_add_right _ _)

/-- What arrives nowhere adds nothing to its supply. -/
theorem supply_le (x : Station p) {h h' : Host} (hlull : h.Lull h') :
    x.supply h' ≤ x.supply h := by
  cases x with
  | producer x => exact Nat.le_refl _
  | stream e => exact Nat.le_refl _
  | listener e => exact hlull _

end Station

/-! ### Broadcasts -/

/-- A broadcast and the channels of its subscribers. -/
structure Cast (α : Type) where
  /-- The broadcast. -/
  broadcast : Broadcast
  /-- The channels. -/
  channels : Channels α

/-- One turn: every value is published, and answered with the outcome. -/
def Cast.react {α : Type} (c : Cast α) (input : Reaction α) (h : Host) :
    Reaction (Except Failure Unit) × Cast α × Host :=
  match input with
  | .value v =>
    let (out, broadcast, channels, h) := c.broadcast.publish v c.channels h
    (.value out, ⟨broadcast, channels⟩, h)
  | other => (other.pass, c, h)

theorem Cast.lull_react {α : Type} (c : Cast α) (input : Reaction α) (h : Host) :
    h.Lull (c.react input h).2.2 := by
  cases input with
  | value v => exact c.broadcast.lull_publish v c.channels h
  | idle => exact .refl h
  | event e => exact .refl h

theorem Cast.isValue_react {α : Type} (c : Cast α) {input : Reaction α}
    (hin : input.isValue = false) (h : Host) : (c.react input h).1.isValue = false := by
  cases input with
  | value v => cases hin
  | idle => rfl
  | event e => rfl

/-! ### Fleets -/

variable {ι κ σ : Type} {kind : ι → Payload} {topic : κ → Payload}

/-- What the leaves of a tree stand for. -/
structure Fleet (kind : ι → Payload) (topic : κ → Payload) (σ : Type) where
  /-- The stations by name. -/
  station : (i : ι) → Station (kind i)
  /-- The broadcasts by name. -/
  cast : (k : κ) → Cast (topic k).Val
  /-- Whatever else there is. -/
  rest : σ

namespace Fleet

/-- A leaf of a tree of stages. -/
inductive Leaf (kind : ι → Payload) (topic : κ → Payload) : Payload → Payload → Type
  /-- The station with the name `i`. -/
  | station (i : ι) : Leaf kind topic .unit (kind i)
  /-- A copy of the broadcast with the name `k`. -/
  | publish (k : κ) : Leaf kind topic (topic k) (.outcome .unit)
  /-- The text stage. -/
  | decode : Leaf kind topic .bytes (.outcome .text)

/-- The station a leaf stands for. -/
def Leaf.station? {p q : Payload} : Leaf kind topic p q → Option ι
  | .station i => some i
  | _ => none

/-- The world that the leaves and functions of a tree act on. -/
abbrev World (kind : ι → Payload) (topic : κ → Payload) (σ : Type) : Type :=
  Fleet kind topic σ × Loop

variable {F : Payload → Payload → Type} [DecidableEq ι] [DecidableEq κ]

/-- One turn of the station with a name. -/
def drive (i : ι) (input : Reaction Unit) (w : World kind topic σ) :
    Reaction (kind i).Val × World kind topic σ :=
  (((w.1.station i).react input w.2).1,
    { w.1 with station := Function.update w.1.station i ((w.1.station i).react input w.2).2.1 },
    ((w.1.station i).react input w.2).2.2)

/-- One turn of the broadcast with a name. -/
def publish (k : κ) (input : Reaction (topic k).Val) (w : World kind topic σ) :
    Reaction (Except Failure Unit) × World kind topic σ :=
  (((w.1.cast k).react input w.2.host).1,
    { w.1 with cast := Function.update w.1.cast k ((w.1.cast k).react input w.2.host).2.1 },
    { w.2 with host := ((w.1.cast k).react input w.2.host).2.2 })

/-- What leaves and functions do. A function may do anything. -/
def behaviour (apply : {p q : Payload} → F p q → p.Val → StateM (World kind topic σ) q.Val) :
    Behaviour (Leaf kind topic) F (StateM (World kind topic σ)) where
  react l input w :=
    match l, input with
    | .station i, input => (((drive i input w).1, .station i), (drive i input w).2)
    | .publish k, input => (((publish k input w).1, .publish k), (publish k input w).2)
    | .decode, input => ((decodeStage input, .decode), w)
  apply := apply

/-! ### What can be expected of stations -/

omit [DecidableEq ι] [DecidableEq κ]

/-- How many values or pending connections a station has. -/
def supply (w : World kind topic σ) (i : ι) : Nat := (w.1.station i).supply w.2.host

/-- The same, and one more for an event of its own. -/
def due (e : Option Event) (w : World kind topic σ) (i : ι) : Nat :=
  (w.1.station i).due e w.2.host

theorem due_none (w : World kind topic σ) (i : ι) : due none w i = supply w i := by
  rw [due, Station.due, if_neg (fun ⟨_, h, _⟩ => nomatch h)]
  rfl

/-- Nothing has arrived at some stations, and none of them has got another token. -/
structure Eases (A : ι → Prop) (w w' : World kind topic σ) : Prop where
  supply_le : ∀ i, A i → supply w' i ≤ supply w i
  token_eq : ∀ i, A i → ∀ token, (w'.1.station i).token = some token →
    (w.1.station i).token = some token

namespace Eases

variable {A : ι → Prop} {w w' w'' : World kind topic σ}

theorem refl (w : World kind topic σ) : Eases A w w := ⟨fun _ _ => Nat.le_refl _, fun _ _ _ => id⟩

theorem trans (h : Eases A w w') (h' : Eases A w' w'') : Eases A w w'' where
  supply_le i hi := Nat.le_trans (h'.supply_le i hi) (h.supply_le i hi)
  token_eq i hi token htoken := h.token_eq i hi token (h'.token_eq i hi token htoken)

/-- No more is to be expected of any of them. -/
theorem due_le (h : Eases A w w') (e : Option Event) {i : ι} (hi : A i) :
    due e w' i ≤ due e w i := by
  have hsupply := h.supply_le i hi
  have htoken := h.token_eq i hi
  unfold due Station.due
  refine Nat.add_le_add hsupply ?_
  -- whoever owns the event now owned it before
  split
  next hown =>
    obtain ⟨event, he, hevent⟩ := hown
    exact Nat.le_of_eq (if_pos ⟨event, he, htoken _ hevent⟩).symm
  next => exact Nat.zero_le _

variable [DecidableEq ι] [DecidableEq κ]

omit [DecidableEq κ] in
theorem drive (A : ι → Prop) (i : ι) (input : Reaction Unit) (w : World kind topic σ) :
    Eases A w (Fleet.drive i input w).2 := by
  obtain ⟨htoken, hlull, hsupply, -⟩ := (w.1.station i).react_spec input w.2
  have hself : (Fleet.drive i input w).2.1.station i = ((w.1.station i).react input w.2).2.1 :=
    Function.update_self i _ _
  -- the other stations stay as they are, on a host where nothing new waits for them
  have hother : ∀ j, j ≠ i → (Fleet.drive i input w).2.1.station j = w.1.station j :=
    fun j hj => Function.update_of_ne hj _ _
  refine ⟨fun j _ => ?_, fun j _ token hj => ?_⟩
  · unfold supply
    by_cases hji : j = i
    · rw [hji, hself]
      exact hsupply
    · rw [hother j hji]
      exact (w.1.station j).supply_le hlull
  · by_cases hji : j = i
    · subst hji
      rw [hself] at hj
      exact htoken.symm.trans hj
    · rwa [hother j hji] at hj

omit [DecidableEq ι] in
theorem publish (A : ι → Prop) (k : κ) (input : Reaction (topic k).Val)
    (w : World kind topic σ) : Eases A w (Fleet.publish k input w).2 where
  supply_le j _ := (w.1.station j).supply_le ((w.1.cast k).lull_react input w.2.host)
  token_eq _ _ _ := id

/-- **A turn of a leaf makes nothing arrive anywhere.** -/
theorem react {apply : {p q : Payload} → F p q → p.Val → StateM (World kind topic σ) q.Val}
    (A : ι → Prop) {p q : Payload} {l l' : Leaf kind topic p q} {input : Reaction p.Val}
    {out : Reaction q.Val} (h : ((behaviour apply).react l input).run w = ((out, l'), w')) :
    Eases A w w' := by
  cases l with
  | station i =>
    cases h
    exact .drive A i input w
  | publish k =>
    cases h
    exact .publish A k input w
  | decode =>
    cases h
    exact .refl w

end Eases

variable [DecidableEq ι] [DecidableEq κ]
  {apply : {p q : Payload} → F p q → p.Val → StateM (World kind topic σ) q.Val}
  {p q : Payload} {l l' : Leaf kind topic p q} {input : Reaction p.Val} {out : Reaction q.Val}
  {w w' : World kind topic σ}

/-- A leaf stands for the same afterwards. -/
theorem leaf_eq (h : ((behaviour apply).react l input).run w = ((out, l'), w')) : l' = l := by
  cases l <;> cases h <;> rfl

/-- What a leaf gives without a value going in: a station's turn takes from what is due there, and
nothing else gives a value. -/
theorem react_le (h : ((behaviour apply).react l input).run w = ((out, l'), w'))
    (hin : input.isValue = false) :
    out.values.length + l.station?.elim 0 (supply w')
      ≤ l.station?.elim 0 (due input.event? w) := by
  -- a publisher answers no value unless it is given one, a decoder neither
  cases l with
  | station i =>
    cases h
    obtain ⟨-, -, -, hvalues⟩ := (w.1.station i).react_spec input w.2
    have hself : (drive i input w).2.1.station i = ((w.1.station i).react input w.2).2.1 :=
      Function.update_self i _ _
    show (drive i input w).1.values.length + supply (drive i input w).2 i ≤ due input.event? w i
    rw [supply, hself]
    exact hvalues
  | publish k =>
    cases h
    have hout := (w.1.cast k).isValue_react hin w.2.host
    have hnone : (publish k input w).1.values = [] := Reaction.values_eq_nil_iff.mpr hout
    show (publish k input w).1.values.length + 0 ≤ 0
    rw [hnone]
    exact Nat.le_refl 0
  | decode =>
    cases h
    cases input with
    | value v => cases hin
    | idle => exact Nat.le_refl 0
    | event e => exact Nat.le_refl 0

end Fleet

end EventLoop

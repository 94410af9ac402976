import EventLoop.Proofs.Host.Confinement
import EventLoop.Proofs.Producer.Bell
import EventLoop.Proofs.Tree.Fleet
import EventLoop.Proofs.Tree.Grafting

/-!
# What an event leaves alone

An event is offered to every branch of a tree, and a value that comes up on the way
may go on to a stage that has a registration of its own.  Of all stations only the one
that holds the token of the event changes for it: tokens are unique, everybody else
passes the event on as it is, and no station makes anything of a value.  What the
holder does concerns its own descriptor and its own registration.

## Main definitions

* `LeafTurn` — a turn of a leaf, written down; `LeafTurn.behaviour` writes down all of them.
* `Station.Placed` — it is registered, with a descriptor that is open.
* `Fleet.Sound` — every station is placed, and nothing has two owners.
* `Fleet.Untouched i w w'` — nothing about the station `i` has changed.
* `Fleet.Frames token w w'` — nothing about the stations that do not hold the token has changed.

## Main results

* `Station.stays_react` — a turn concerns the station's own descriptor and registration.
* `Fleet.frames_react` — **a leaf's turn leaves alone whoever does not hold the token.**
* `Fleet.runs_of_stepped` — the same for trees.
* `Fleet.react_event_spec` — all of it, for any tree, event and world.
-/

namespace EventLoop

/-! ### Turns of leaves, written down -/

/-- A turn of a leaf. -/
structure LeafTurn (L : Payload → Payload → Type) (ω : Type) where
  /-- What kind of values it takes. -/
  p : Payload
  /-- What kind of values it gives. -/
  q : Payload
  /-- The leaf. -/
  leaf : L p q
  /-- What it was given. -/
  input : Reaction p.Val
  /-- What it answered. -/
  out : Reaction q.Val
  /-- The world before its turn. -/
  before : ω
  /-- The world after it. -/
  after : ω

namespace LeafTurn

variable {L F : Payload → Payload → Type} {ω : Type} {p q : Payload}

/-- Leaves have their turns and functions are applied as ever, and every turn of a leaf is written
down. -/
def behaviour (b : Behaviour L F (StateM ω)) :
    Behaviour L F (StateM (ω × List (LeafTurn L ω))) where
  react l input := fun (w, turns) =>
    let ((out, l'), w') := (b.react l input).run w
    ((out, l'), w', turns ++ [⟨_, _, l, input, out, w, w'⟩])
  apply f v := fun (w, turns) =>
    let (x, w') := (b.apply f v).run w
    (x, w', turns)

/-- To write the turns down changes nothing. -/
theorem run_react (b : Behaviour L F (StateM ω)) (t : Tree L F p q) (input : Reaction p.Val)
    (w : ω) (turns : List (LeafTurn L ω)) :
    (t.react b input).run w = (((t.react (behaviour b) input).run (w, turns)).1,
      ((t.react (behaviour b) input).run (w, turns)).2.1) := by
  have hgraft := Tree.run_react_graft (b := behaviour b) (c := b) (φ := .leaf) (γ := id)
    (ψ := Prod.fst) (fun _ _ _ => rfl) (fun _ _ _ => rfl) t input (w, turns)
  rwa [Tree.graft_leaf, Tree.graft_leaf] at hgraft

end LeafTurn

/-! ### Stations -/

/-- A receiver takes from the channel that its bell belongs to. -/
def Producer.Tuned {α : Type} : Producer α → Prop
  | .signal e t => ∀ c, t.get? e.inner.channel = some c → c.bell = e.inner.bell
  | _ => True

/-- A turn of a receiver keeps it tuned, and of the host it changes its bell at most. -/
theorem Evented.tuned_receive {α : Type} {e : Evented Receiver} {t : Channels α}
    (ht : ∀ c, t.get? e.inner.channel = some c → c.bell = e.inner.bell) (input : Reaction Unit)
    (h : Host) :
    (∀ c, (e.receive input t h).2.1.get? e.inner.channel = some c → c.bell = e.inner.bell) ∧
      ((e.receive input t h).2.2 = h ∨ (e.receive input t h).2.2 = e.inner.bell.clear h) := by
  rcases e.frame_receive input t h with hsame | ⟨c, c', hc, hbell, htable, hhost⟩
  · rw [hsame]
    exact ⟨ht, .inl rfl⟩
  · rw [ht c hc] at hbell hhost
    refine ⟨fun d hd => ?_, hhost⟩
    -- the channel that is put back has the bell of the one that was there
    rw [htable, Channels.get?_set, hc] at hd
    cases hd
    exact hbell

namespace Station

variable {p : Payload}

/-- The descriptor it is registered with. -/
def descriptor : Station p → Option Nat
  | .producer x => x.bell.descriptor
  | .stream e => e.inner.descriptor
  | .listener e => e.inner.descriptor

/-- A receiver takes from the channel that its bell belongs to. -/
def Tuned : Station p → Prop
  | .producer x => x.Tuned
  | _ => True

variable {x x' x'' : Station p} {l l' l'' : Loop}

/-- It is registered, with a descriptor that is open. -/
structure Placed (x : Station p) (l : Loop) : Prop where
  registered : ∃ token fd i, x.token = some token ∧ x.descriptor = some fd ∧
    l.system.table.get? token = some ⟨some fd, i⟩ ∧ (l.host.object? fd).isSome = true
  tuned : x.Tuned

/-- What concerns neither its descriptor nor its token leaves it placed. -/
theorem Placed.of_confined {D : Nat → Prop} {T : Token → Prop} (hx : x.Placed l)
    (hc : l.Confined D T l') (hD : ∀ fd, x.descriptor = some fd → ¬D fd)
    (hT : ∀ token, x.token = some token → ¬T token) : x.Placed l' := by
  obtain ⟨token, fd, i, htoken, hfd, hget, hopen⟩ := hx.registered
  refine ⟨⟨token, fd, i, htoken, hfd, ?_, ?_⟩, hx.tuned⟩
  · rw [hc.get?_eq token (hT token htoken), hget]
  · exact hc.host.isSome_object? (hD fd hfd) hopen

/-- No station makes anything of a value. -/
theorem react_value (x : Station p) (v : Unit) (l : Loop) :
    x.react (.value v) l = (.idle, x, l) := by
  cases x with
  | producer x => cases x <;> rfl
  | stream e => rfl
  | listener e => rfl

/-- **An event of somebody else is returned, and nothing has changed.** -/
theorem react_foreign {event : Event} (hx : x.token ≠ some event.token) (l : Loop) :
    x.react (.event event) l = (.event event, x, l) := by
  have hnot : ∀ {ι : Type} (e : Evented ι), e.token ≠ some event.token → e.owns event = false :=
    fun e he => beq_eq_false_iff_ne.mpr he
  cases x with
  | producer x =>
    cases x with
    | generator g => simp [react, Producer.react, Generator.react, hnot g.evented hx]
    | mono m => simp [react, Producer.react, Mono.react, hnot m.evented hx]
    | signal e t => simp [react, Producer.react, Evented.receive, hnot e hx]
  | stream e => simp [react, Evented.wake, Evented.accept, hnot e hx]
  | listener e => simp [react, Evented.listen, Evented.accept, hnot e hx]

/-- What a turn concerns: the station's own descriptor and its own registration, both of which it
keeps. -/
structure Stays (x : Station p) (l : Loop) (x' : Station p) (l' : Loop) : Prop where
  token_eq : x'.token = x.token
  descriptor_eq : x'.descriptor = x.descriptor
  confined : l.Confined (x.descriptor = some ·) (x.token = some ·) l'
  placed : x'.Placed l'

theorem Stays.refl (hx : x.Placed l) : Stays x l x l := ⟨rfl, rfl, .refl _ _ l, hx⟩

theorem Stays.trans (h₁ : Stays x l x' l') (h₂ : Stays x' l' x'' l'') : Stays x l x'' l'' where
  token_eq := h₂.token_eq.trans h₁.token_eq
  descriptor_eq := h₂.descriptor_eq.trans h₁.descriptor_eq
  confined := by
    have hconf := h₂.confined
    rw [h₁.token_eq, h₁.descriptor_eq] at hconf
    exact h₁.confined.trans hconf
  placed := h₂.placed

/-- Only the host is concerned, and the descriptor stays open. -/
theorem Stays.of_host {h : Host} (hx : x.Placed l) (htoken : x'.token = x.token)
    (hfd : x'.descriptor = x.descriptor) (htuned : x'.Tuned)
    (hconf : l.host.Confined (x.descriptor = some ·) h)
    (hopen : ∀ fd, x.descriptor = some fd → (l.host.object? fd).isSome = true →
      (h.object? fd).isSome = true) : Stays x l x' { l with host := h } := by
  refine ⟨htoken, hfd, .of_host hconf, ?_, htuned⟩
  obtain ⟨token, fd, i, ht, hd, hget, ho⟩ := hx.registered
  exact ⟨token, fd, i, htoken.trans ht, hfd.trans hd, hget, hopen fd hd ho⟩

/-- At most the flag of the station is cleared. -/
theorem Stays.of_clear {n : Notifier} {h : Host} (hx : x.Placed l) (htoken : x'.token = x.token)
    (hfd : x'.descriptor = x.descriptor) (htuned : x'.Tuned) (hn : x.descriptor = n.descriptor)
    (hh : h = l.host ∨ h = n.clear l.host) : Stays x l x' { l with host := h } := by
  rcases hh with rfl | rfl
  · exact .of_host hx htoken hfd htuned (.refl _ _) fun _ _ ho => ho
  · exact .of_host hx htoken hfd htuned (n.confined_clear (fun _ h => hn.trans h) l.host)
      fun _ _ ho => n.isSome_object?_clear ho

theorem stays_producer {x : Producer p.Val} (hx : (Station.producer x).Placed l)
    (input : Reaction Unit) : Stays (.producer x) l ((Station.producer x).react input l).2.1
      ((Station.producer x).react input l).2.2 := by
  cases x with
  | generator g =>
    obtain ⟨hsame, hhost⟩ := g.frame_react input l.host
    exact .of_clear hx (congrArg Evented.token hsame) (congrArg (·.inner.descriptor) hsame) trivial
      rfl hhost
  | mono m =>
    obtain ⟨hsame, hhost⟩ := m.frame_react input l.host
    exact .of_clear hx (congrArg Evented.token hsame) (congrArg (·.inner.descriptor) hsame) trivial
      rfl hhost
  | signal e t =>
    obtain ⟨htuned, hhost⟩ := Evented.tuned_receive hx.tuned input l.host
    exact .of_clear hx rfl rfl htuned rfl hhost

/-- A station with a resource `ι` latches the readiness of an event of its own. -/
theorem Stays.accept {ι : Type} (mk : Evented ι → Station p) (d : ι → Option Nat)
    (htoken : ∀ e, (mk e).token = e.token) (hd : ∀ e, (mk e).descriptor = d e.inner)
    (htuned : ∀ e, (mk e).Tuned) {e : Evented ι} {event : Event}
    (hown : e.token = some event.token) (hx : (mk e).Placed l) :
    Stays (mk e) l (mk (e.accept event l).2.1) (e.accept event l).2.2 := by
  obtain ⟨token, fd, i, ht, hfd, hget, hopen⟩ := hx.registered
  obtain ⟨-, hinner, hsame, -⟩ := e.accept_spec event l
  have heq : event.token = token := by
    rw [htoken, hown] at ht
    exact Option.some.inj ht
  have hrewatch := (e.rewatches_accept event l).object? fd
  rw [← heq] at hget ht
  obtain ⟨hconf, i', hget'⟩ := e.confined_accept event (D := ((mk e).descriptor = some ·))
    (T := ((mk e).token = some ·)) hget (fun j hj => hfd.trans hj) ht
  -- the table keeps the descriptor under the token, and at most what it is watched for changes
  refine ⟨?_, ?_, hconf, ⟨event.token, fd, i', ?_, ?_, hget', ?_⟩, htuned _⟩
  · rw [htoken, htoken, hsame]
  · rw [hd, hd, hinner]
  · rw [htoken, hsame, hown]
  · rw [hd, hinner, ← hd, hfd]
  · rcases hrewatch with ho | ⟨-, watches', -, ho⟩
    · rw [ho, hopen]
    · rw [ho]
      rfl

theorem stays_listen_idle {e : Evented Listener} (hx : (Station.listener e).Placed l) :
    Stays (.listener e) l (.listener (e.listen .idle l).2.1) (e.listen .idle l).2.2 := by
  unfold Evented.listen
  dsimp only
  split
  · rw [Listener.accept_eq]
    cases ha : l.host.calm.accept e.inner.descriptor with
    | error errno => exact .of_host hx rfl rfl trivial (.calm _ _) fun _ _ ho => ho
    | ok r =>
      obtain ⟨⟨client, peer⟩, h⟩ := r
      refine .of_host hx rfl rfl trivial
        ((Host.Confined.calm _ _).trans (Host.confined_accept ha fun _ hfd => hfd)) ?_
      intro fd hfd ho
      obtain ⟨fd', bound, number, rest, hfd', ho', halloc, -⟩ := Host.accept_eq_ok ha
      have heq : e.inner.descriptor = some fd := hfd
      rw [hfd'] at heq
      cases heq
      rw [(Host.object?_accept ho' halloc).1]
      rfl
  · exact .refl hx

/-- **A turn concerns the station's own descriptor and its own registration.** -/
theorem stays_react (hx : x.Placed l) (input : Reaction Unit) :
    Stays x l (x.react input l).2.1 (x.react input l).2.2 := by
  cases x with
  | producer x => exact stays_producer hx input
  | stream e =>
    cases input with
    | value _ => exact .refl hx
    | idle => exact .refl hx
    | event event =>
      by_cases hown : e.token = some event.token
      · have haccept : Stays (.stream e) l (.stream (e.accept event l).2.1)
            (e.accept event l).2.2 :=
          .accept .stream (·.descriptor) (fun _ => rfl) (fun _ => rfl) (fun _ => trivial) hown hx
        have hwake : (e.wake (.event event) l).2 = (e.accept event l).2 := by
          unfold Evented.wake
          dsimp only
          split <;> rename_i hr <;> rw [hr]
        show Stays _ l (.stream (e.wake (.event event) l).2.1) (e.wake (.event event) l).2.2
        rw [hwake]
        exact haccept
      · have hforeign : (Station.stream e).token ≠ some event.token := hown
        rw [react_foreign hforeign]
        exact .refl hx
  | listener e =>
    cases input with
    | value _ => exact .refl hx
    | idle => exact stays_listen_idle hx
    | event event =>
      by_cases hown : e.token = some event.token
      · have haccept : Stays (.listener e) l (.listener (e.accept event l).2.1)
            (e.accept event l).2.2 :=
          .accept .listener (·.descriptor) (fun _ => rfl) (fun _ => rfl) (fun _ => trivial) hown hx
        have htrue : (e.accept event l).1 = true := by
          rw [(e.accept_spec event l).1]
          exact beq_iff_eq.mpr hown
        have hgo : e.listen (.event event) l
            = (e.accept event l).2.1.listen .idle (e.accept event l).2.2 :=
          Evented.listen_of_own (Prod.ext htrue rfl)
        show Stays _ l (.listener (e.listen (.event event) l).2.1) (e.listen (.event event) l).2.2
        rw [hgo]
        exact haccept.trans (stays_listen_idle haccept.placed)
      · have hforeign : (Station.listener e).token ≠ some event.token := hown
        rw [react_foreign hforeign]
        exact .refl hx

end Station

/-! ### Fleets -/

namespace Fleet

variable {ι κ σ : Type} {kind : ι → Payload} {topic : κ → Payload} {F : Payload → Payload → Type}
  {p q : Payload} {w w' w'' : World kind topic σ} {i j : ι} {k : κ}

/-- The descriptor of the bell of one of the channels that a broadcast has for itself. -/
def HasBell (w : World kind topic σ) (k : κ) (fd : Nat) : Prop :=
  (w.1.cast k).channels.HasBell fd

/-- Every station is placed, and nothing has two owners: neither the descriptors of the stations
nor the bells of what the broadcasts feed. -/
structure Sound (w : World kind topic σ) : Prop where
  placed : ∀ i, (w.1.station i).Placed w.2
  apart : ∀ i j fd, (w.1.station i).descriptor = some fd → (w.1.station j).descriptor = some fd →
    i = j
  belled : ∀ k, (w.1.cast k).channels.Belled w.2.host
  casts_apart : ∀ k k' fd, HasBell w k fd → HasBell w k' fd → k = k'
  bells_apart : ∀ k i fd, HasBell w k fd → (w.1.station i).descriptor ≠ some fd

/-- Nothing about a station has changed: neither queue, value, latches and interest, nor the
readiness of its descriptor, nor what is known of it under its token, nor what it is watched
for. -/
structure Untouched (i : ι) (w w' : World kind topic σ) : Prop where
  station_eq : w'.1.station i = w.1.station i
  readiness_eq : w'.2.host.readiness (w.1.station i).descriptor
    = w.2.host.readiness (w.1.station i).descriptor
  get?_eq : ∀ token, (w.1.station i).token = some token →
    w'.2.system.table.get? token = w.2.system.table.get? token
  watchesOf_eq : ∀ fd, (w.1.station i).descriptor = some fd →
    w'.2.host.watchesOf w'.2.system.poller.descriptor fd
      = w.2.host.watchesOf w.2.system.poller.descriptor fd

/-- No function acts on a station. It may do anything else that leaves everything with its one
owner. -/
def Spares (apply : {p q : Payload} → F p q → p.Val → StateM (World kind topic σ) q.Val) : Prop :=
  ∀ {p q : Payload} (f : F p q) (v : p.Val) (w : World kind topic σ), Sound w →
    Sound ((apply f v).run w).2 ∧ ∀ i, Untouched i w ((apply f v).run w).2

/-- Nothing has changed about the stations that do not hold the token. -/
structure Frames (token : Token) (w w' : World kind topic σ) : Prop where
  sound : Sound w'
  token_eq : ∀ i, (w'.1.station i).token = (w.1.station i).token
  untouched : ∀ i, (w.1.station i).token ≠ some token → Untouched i w w'

theorem Untouched.refl (i : ι) (w : World kind topic σ) : Untouched i w w :=
  ⟨rfl, rfl, fun _ _ => rfl, fun _ _ => rfl⟩

theorem Untouched.trans (h₁ : Untouched i w w') (h₂ : Untouched i w' w'') : Untouched i w w'' := by
  obtain ⟨hstation, hready, hget, hwatch⟩ := h₂
  rw [h₁.station_eq] at hstation hready hget hwatch
  exact ⟨hstation, hready.trans h₁.readiness_eq,
    fun token ht => (hget token ht).trans (h₁.get?_eq token ht),
    fun fd hfd => (hwatch fd hfd).trans (h₁.watchesOf_eq fd hfd)⟩

theorem Frames.refl (token : Token) (hw : Sound w) : Frames token w w :=
  ⟨hw, fun _ => rfl, fun i _ => .refl i w⟩

theorem Frames.trans {token : Token} (h₁ : Frames token w w') (h₂ : Frames token w' w'') :
    Frames token w w'' where
  sound := h₂.sound
  token_eq i := (h₂.token_eq i).trans (h₁.token_eq i)
  untouched i hi := by
    have hi' : (w'.1.station i).token ≠ some token := by
      rw [h₁.token_eq i]
      exact hi
    exact (h₁.untouched i hi).trans (h₂.untouched i hi')

/-- What concerns neither its descriptor nor its token leaves a station alone. -/
theorem Untouched.of_confined {D : Nat → Prop} {T : Token → Prop}
    (hw : (w.1.station i).Placed w.2) (hstation : w'.1.station i = w.1.station i)
    (hc : w.2.Confined D T w'.2) (hD : ∀ fd, (w.1.station i).descriptor = some fd → ¬D fd)
    (hT : ∀ token, (w.1.station i).token = some token → ¬T token) : Untouched i w w' := by
  obtain ⟨token, fd, i, -, hfd, -, hopen⟩ := hw.registered
  refine ⟨hstation, ?_, fun t ht => hc.get?_eq t (hT t ht), fun fd hfd => ?_⟩
  · rw [hfd]
    exact hc.host.readiness_eq (hD fd hfd) hopen
  · rw [hc.poller_eq]
    exact hc.host.watchesOf_eq _ fd (hD fd hfd)

/-- No two stations hold one token, since none has the descriptor of another. -/
theorem Sound.eq_of_token (hw : Sound w) {token : Token}
    (hi : (w.1.station i).token = some token) (hj : (w.1.station j).token = some token) :
    i = j := by
  obtain ⟨t, fd, _, ht, hfd, hget, -⟩ := (hw.placed i).registered
  obtain ⟨t', fd', _, ht', hfd', hget', -⟩ := (hw.placed j).registered
  -- both are what the table has under the token
  rw [hi] at ht
  rw [hj] at ht'
  cases ht
  cases ht'
  rw [hget] at hget'
  cases hget'
  exact hw.apart i j fd hfd hfd'

variable [DecidableEq ι] [DecidableEq κ]

omit [DecidableEq κ] in
/-- The turn of a station leaves every other station alone. -/
theorem drive_spec (hw : Sound w) (i : ι) (input : Reaction Unit) :
    Sound (drive i input w).2 ∧ (∀ j, ((drive i input w).2.1.station j).token
      = (w.1.station j).token) ∧ ∀ j, j ≠ i → Untouched j w (drive i input w).2 := by
  have hstays := Station.stays_react (hw.placed i) input
  have hself : (drive i input w).2.1.station i = ((w.1.station i).react input w.2).2.1 :=
    Function.update_self i _ _
  have hother : ∀ j, j ≠ i → (drive i input w).2.1.station j = w.1.station j :=
    fun j hj => Function.update_of_ne hj _ _
  have hconf : w.2.Confined ((w.1.station i).descriptor = some ·) ((w.1.station i).token = some ·)
    (drive i input w).2.2 := hstays.confined
  have hD : ∀ j, j ≠ i → ∀ fd, (w.1.station j).descriptor = some fd →
      ¬(w.1.station i).descriptor = some fd := fun j hj fd hfd hi => hj (hw.apart j i fd hfd hi)
  have hT : ∀ j, j ≠ i → ∀ token, (w.1.station j).token = some token →
      ¬(w.1.station i).token = some token := fun j hj token ht hi => hj (hw.eq_of_token ht hi)
  have hfd : ∀ j, ((drive i input w).2.1.station j).descriptor = (w.1.station j).descriptor := by
    intro j
    by_cases hj : j = i
    · rw [hj, hself, hstays.descriptor_eq]
    · rw [hother j hj]
  -- soundness: the station is placed since it stays, and everybody else because the turn concerns
  -- a descriptor and a token that are not theirs
  refine ⟨⟨fun j => ?_, fun j j' fd hj hj' => ?_, fun k => ?_, hw.casts_apart,
    fun k j fd hk => ?_⟩, fun j => ?_, fun j hj => ?_⟩
  · by_cases hj : j = i
    · rw [hj, hself]
      exact hstays.placed
    · rw [hother j hj]
      exact (hw.placed j).of_confined hconf (hD j hj) (hT j hj)
  · rw [hfd] at hj hj'
    exact hw.apart j j' fd hj hj'
  · exact (hw.belled k).of_confined hconf.host fun fd hk => hw.bells_apart k i fd hk
  · rw [hfd]
    exact hw.bells_apart k j fd hk
  · by_cases hj : j = i
    · rw [hj, hself, hstays.token_eq]
    · rw [hother j hj]
  · exact .of_confined (hw.placed j) (hother j hj) hconf (hD j hj) (hT j hj)

omit [DecidableEq ι] in
/-- A broadcast leaves every station alone. -/
theorem publish_spec (hw : Sound w) (k : κ) (input : Reaction (topic k).Val) :
    Sound (publish k input w).2 ∧ ∀ i, Untouched i w (publish k input w).2 := by
  have hcarries : (w.1.cast k).channels.Carries w.2.host
      ((w.1.cast k).react input w.2.host).2.1.channels
      ((w.1.cast k).react input w.2.host).2.2 := by
    cases input with
    | value v => exact (w.1.cast k).broadcast.carries_publish v (hw.belled k)
    | idle => exact .refl (hw.belled k)
    | event e => exact .refl (hw.belled k)
  have hself : (publish k input w).2.1.cast k = ((w.1.cast k).react input w.2.host).2.1 :=
    Function.update_self k _ _
  have hother : ∀ k', k' ≠ k → (publish k input w).2.1.cast k' = w.1.cast k' :=
    fun k' hk' => Function.update_of_ne hk' _ _
  -- no bell is new: each was there before, with the descriptor it has now
  have hbell : ∀ k' fd, HasBell (publish k input w).2 k' fd → HasBell w k' fd := by
    rintro k' fd ⟨id, hid⟩
    by_cases hk' : k' = k
    · subst hk'
      rw [hself] at hid
      exact ⟨id, hcarries.bell?_eq id fd hid⟩
    · rw [hother k' hk'] at hid
      exact ⟨id, hid⟩
  have hconf : w.2.Confined (HasBell w k) (fun _ => False) (publish k input w).2.2 :=
    .of_host hcarries.confined
  have hD : ∀ i fd, (w.1.station i).descriptor = some fd → ¬HasBell w k fd :=
    fun i fd hfd hk => hw.bells_apart k i fd hk hfd
  refine ⟨⟨fun i => ?_, hw.apart, fun k' => ?_, fun k₁ k₂ fd h₁ h₂ => ?_, fun k' i fd hk' => ?_⟩,
    fun i => ?_⟩
  · exact (hw.placed i).of_confined hconf (hD i) fun _ _ => id
  · by_cases hk' : k' = k
    · subst hk'
      rw [hself]
      exact hcarries.belled
    · rw [hother k' hk']
      exact (hw.belled k').of_confined hconf.host
        fun fd h₁ h₂ => hk' (hw.casts_apart k' k fd h₁ h₂)
  · exact hw.casts_apart k₁ k₂ fd (hbell k₁ fd h₁) (hbell k₂ fd h₂)
  · exact hw.bells_apart k' i fd (hbell k' fd hk')
  · exact .of_confined (hw.placed i) rfl hconf (hD i) fun _ _ => id

/-! ### Leaves and trees -/

omit [DecidableEq κ] in
/-- A station whose turn changes nothing of it changes nothing at all. -/
theorem drive_of_react {input : Reaction Unit} {out : Reaction (kind i).Val}
    (hr : (w.1.station i).react input w.2 = (out, w.1.station i, w.2)) :
    drive i input w = (out, w) := by
  unfold drive
  rw [hr]
  dsimp only
  rw [Function.update_eq_self]

omit [DecidableEq ι] in
/-- A broadcast passes on what is no value. -/
theorem publish_event (k : κ) (e : Event) (w : World kind topic σ) :
    publish k (.event e) w = (.event e, w) := by
  unfold publish Cast.react
  dsimp only
  rw [Function.update_eq_self]
  rfl

/-- How a leaf may take a turn while the tree reacts to an event, if stations have tokens as in
`w`. -/
structure Orderly (e : Event) (w : World kind topic σ)
    (turn : LeafTurn (Leaf kind topic) (World kind topic σ)) : Prop where
  /-- It is offered the event, or it is given a value. -/
  given : turn.input = .event e ∨ turn.input.isValue = true
  /-- The event is returned unchanged, and nothing changes, if it is not an event of its own. -/
  passed : turn.input = .event e →
    (∀ i, turn.leaf.station? = some i → (w.1.station i).token ≠ some e.token) →
      turn.out = .event e ∧ turn.after = turn.before
  /-- No station makes anything of a value. -/
  swallowed : ∀ i, turn.leaf.station? = some i → turn.input.isValue = true →
    turn.out = .idle ∧ turn.after = turn.before

omit [DecidableEq ι] [DecidableEq κ] in
theorem Orderly.of_frames {e : Event} {token : Token}
    {turn : LeafTurn (Leaf kind topic) (World kind topic σ)} (h : Orderly e w' turn)
    (hf : Frames token w w') : Orderly e w turn where
  given := h.given
  passed hin hother := h.passed hin fun i hi => by
    rw [hf.token_eq i]
    exact hother i hi
  swallowed := h.swallowed

variable {apply : {p q : Payload} → F p q → p.Val → StateM (World kind topic σ) q.Val}
  {e : Event}

variable (apply) in
/-- **A leaf's turn leaves alone whoever does not hold the token**, and it is as it may be. -/
theorem frames_react (hw : Sound w) {l l' : Leaf kind topic p q} {input : Reaction p.Val}
    {out : Reaction q.Val} (h : ((behaviour apply).react l input).run w = ((out, l'), w'))
    (hin : input = .event e ∨ input.isValue = true) :
    Frames e.token w w' ∧ Orderly e w ⟨p, q, l, input, out, w, w'⟩ := by
  cases l with
  | station i =>
    cases h
    rcases hin with rfl | hvalue
    · by_cases hi : (w.1.station i).token = some e.token
      · obtain ⟨hsound, htoken, hother⟩ := drive_spec hw i (.event e)
        refine ⟨⟨hsound, htoken, fun j hj => ?_⟩, .inl rfl, fun _ hforeign => ?_, fun _ _ hv => ?_⟩
        · -- somebody else, since it does not hold the token
          refine hother j ?_
          rintro rfl
          exact hj hi
        · exact absurd hi (hforeign i rfl)
        · cases hv
      · have hpass : drive i (.event e) w = (.event e, w) :=
          drive_of_react (Station.react_foreign hi w.2)
        rw [hpass]
        exact ⟨.refl _ hw, .inl rfl, fun _ _ => ⟨rfl, rfl⟩, fun _ _ hv => nomatch hv⟩
    · cases input with
      | value v =>
        have hnone : drive i (.value v) w = (.idle, w) :=
          drive_of_react (Station.react_value _ v w.2)
        rw [hnone]
        exact ⟨.refl _ hw, .inr rfl, (fun hv => nomatch hv), fun _ _ _ => ⟨rfl, rfl⟩⟩
      | idle => cases hvalue
      | event e' => cases hvalue
  | publish k =>
    cases h
    obtain ⟨hsound, huntouched⟩ := publish_spec hw k input
    refine ⟨⟨hsound, fun _ => rfl, fun i _ => huntouched i⟩, hin, fun hevent _ => ?_,
      fun _ hi => nomatch hi⟩
    obtain rfl : input = .event e := hevent
    rw [publish_event]
    exact ⟨rfl, rfl⟩
  | decode =>
    cases h
    refine ⟨.refl _ hw, hin, fun hevent _ => ?_, fun _ hi => nomatch hi⟩
    obtain rfl : input = .event e := hevent
    exact ⟨rfl, rfl⟩

omit [DecidableEq ι] [DecidableEq κ] in
theorem Spares.frames (happly : Spares apply) (hw : Sound w) {f : F p q} {v : p.Val} {x : q.Val}
    (hf : (apply f v).run w = (x, w')) (token : Token) : Frames token w w' := by
  obtain ⟨hsound, huntouched⟩ := happly f v w hw
  rw [hf] at hsound huntouched
  exact ⟨hsound, fun i => by rw [(huntouched i).station_eq], fun i _ => huntouched i⟩

/-- What becomes of a world beside which turns are written down: whoever does not hold the token
is left alone, and the turns are as they may be. -/
structure Runs (e : Event) (x x' : World kind topic σ × List (LeafTurn (Leaf kind topic)
    (World kind topic σ))) : Prop where
  frames : Frames e.token x.1 x'.1
  turns : ∃ turns, x'.2 = x.2 ++ turns ∧ ∀ turn ∈ turns, Orderly e x.1 turn

omit [DecidableEq ι] [DecidableEq κ] in
theorem Runs.of_frames {x x' : World kind topic σ × List (LeafTurn (Leaf kind topic)
    (World kind topic σ))} (hf : Frames e.token x.1 x'.1) (hlog : x'.2 = x.2) : Runs e x x' :=
  ⟨hf, [], by rw [hlog, List.append_nil], fun _ h => nomatch h⟩

omit [DecidableEq ι] [DecidableEq κ] in
theorem Runs.trans {x x' x'' : World kind topic σ × List (LeafTurn (Leaf kind topic)
    (World kind topic σ))} (h₁ : Runs e x x') (h₂ : Runs e x' x'') : Runs e x x'' := by
  obtain ⟨turns₁, hlog₁, ho₁⟩ := h₁.turns
  obtain ⟨turns₂, hlog₂, ho₂⟩ := h₂.turns
  refine ⟨h₁.frames.trans h₂.frames, turns₁ ++ turns₂, ?_, fun turn hturn => ?_⟩
  · rw [hlog₂, hlog₁, List.append_assoc]
  · rcases List.mem_append.mp hturn with hturn | hturn
    · exact ho₁ turn hturn
    · exact (ho₂ turn hturn).of_frames h₁.frames

/-- A tree that is offered an event, or given a value on the way, leaves alone whoever does not
hold the token. -/
theorem runs_of_stepped (happly : Spares apply) {t t' : Tree (Leaf kind topic) F p q}
    {input : Reaction p.Val} {out : Reaction q.Val}
    {x x' : World kind topic σ × List (LeafTurn (Leaf kind topic) (World kind topic σ))}
    (h : Stepped (LeafTurn.behaviour (behaviour apply)) t x input out t' x') (hx : Sound x.1)
    (hin : input = .event e ∨ input.isValue = true) : Runs e x x' := by
  -- on the step of the tree; what a stage is given is the event again, or a value of the stage
  -- before, and it finds the world sound because that stage has left it so
  induction h with
  | @leaf p q l l' x x' input out h =>
    cases h
    obtain ⟨hframes, horderly⟩ := frames_react apply hx (l := l) rfl hin
    refine ⟨hframes, [_], rfl, fun turn hturn => ?_⟩
    rw [List.mem_singleton.mp hturn]
    exact horderly
  | consume x input => exact .of_frames (.refl _ hx) rfl
  | boxed _ ih => exact ih hx hin
  | cross _ _ iht ihs =>
    have hfirst := iht hx hin
    exact hfirst.trans (ihs hfirst.frames.sound (.inr rfl))
  | stay _ _ ih => exact ih hx hin
  | @mapped _ _ _ t t' f x x₁ x₂ input v y _ hf ih =>
    have hsource := ih hx hin
    cases hf
    exact hsource.trans (.of_frames (happly.frames hsource.frames.sound rfl _) rfl)
  | unmapped _ _ ih => exact ih hx hin
  | both _ _ iht ihs =>
    have hfirst := iht hx hin
    exact hfirst.trans (ihs hfirst.frames.sound hin)
  | left _ ih => exact ih hx (.inr rfl)
  | right _ ih => exact ih hx (.inr rfl)
  | fork hno _ _ _ iht ihs =>
    -- no value, so it is the event, which both alternatives are offered
    rcases hin with rfl | hvalue
    · have hfirst := iht hx (.inl rfl)
      exact hfirst.trans (ihs hfirst.frames.sound (.inl rfl))
    · rw [hno] at hvalue
      cases hvalue

/-- **An event changes no station but the one that holds its token.**  The stations are registered
with one system, each with a descriptor that is open and its own; no function and no broadcast of
the tree acts on one of them.  Then at most one station holds the token, and nothing about any
other has changed after the reaction, which leaves everything as it was presupposed.  Each leaf
that has a turn is offered the event or given a value; whoever is offered the event and does not
hold the token returns it unchanged, and no station makes anything of a value.  To write the turns
down changes nothing. -/
theorem react_event_spec
    (apply : {p q : Payload} → F p q → p.Val → StateM (World kind topic σ) q.Val)
    (t : Tree (Leaf kind topic) F p q) (e : Event) (w : World kind topic σ) (hw : Sound w)
    (happly : Spares apply) :
    let run := (t.react (behaviour apply) (.event e)).run w
    let written := (t.react (LeafTurn.behaviour (behaviour apply)) (.event e)).run (w, [])
    run = (written.1, written.2.1) ∧ Sound run.2 ∧
      (∀ i j, (w.1.station i).token = some e.token → (w.1.station j).token = some e.token → i = j) ∧
      (∀ i, (w.1.station i).token ≠ some e.token → Untouched i w run.2) ∧
      ∀ turn ∈ written.2.2, Orderly e w turn := by
  intro run written
  have hrun : run = (written.1, written.2.1) := LeafTurn.run_react _ t (.event e) w []
  have hstep := t.stepped_react (LeafTurn.behaviour (behaviour apply)) (.event e) (w, [])
  obtain ⟨hframes, turns, hlog, horderly⟩ := runs_of_stepped happly hstep hw (.inl rfl)
  have hworld : written.2.1 = run.2 := by rw [hrun]
  have hturns : written.2.2 = turns := hlog
  refine ⟨hrun, ?_, fun i j => hw.eq_of_token, fun i hi => ?_, fun turn hturn => ?_⟩
  · rw [← hworld]
    exact hframes.sound
  · rw [← hworld]
    exact hframes.untouched i hi
  · rw [hturns] at hturn
    exact horderly turn hturn

/-! ### One of each kind -/

/-- A station of each kind. -/
inductive Post
  | generator
  | mono
  | signal
  | stream
  | listener
  deriving DecidableEq

/-- What each of them gives. -/
@[reducible] def Post.payload : Post → Payload
  | .generator => .int
  | .mono => .text
  | .signal => .bytes
  | .stream => .unit
  | .listener => .connection

/-- A channel with one value, whose bell has the descriptor `fd`. -/
def rung {α : Type} (id fd : Nat) (v : α) : Channel α :=
  { id, capacity := .unbounded, queue := [v], bell := ⟨some fd⟩, senders := 1, hadSenders := true,
    hasReceiver := true, parked := 0 }

/-- The stations, and a broadcast with one subscriber. -/
def garrison : Fleet Post.payload (fun _ : Unit => .int) Unit where
  station
    | .generator => .producer (.generator
        ⟨([1, 2] : List Int64), { Evented.new ⟨some 0⟩ .readable with token := some 0 }⟩)
    | .mono => .producer (.mono
        ⟨some "once", { Evented.new ⟨some 1⟩ .readable with token := some 1 }⟩)
    | .signal => .producer (.signal { Evented.new ⟨8, ⟨some 2⟩⟩ .readable with token := some 2 }
        ⟨[(8, rung 8 2 ([7] : List UInt8))]⟩)
    | .stream => .stream
        ⟨⟨.unix, some 3⟩, some 3, .readable, true, false, false⟩
    | .listener => .listener
        ⟨⟨.unix, some 4, ""⟩, some 4, .readable, false, true, false⟩
  cast _ := ⟨⟨.unbounded, [9]⟩, ⟨[(9, rung 9 5 (3 : Int64))]⟩⟩
  rest := ()

/-- The host they are on. -/
def groundHost : Host :=
  { Host.initial .silent with
    descriptors := #[some (.counter ⟨1, by decide⟩), some (.counter ⟨1, by decide⟩),
      some (.counter ⟨1, by decide⟩), some (.stream 0), some (.listener (.path "") [2]),
      some (.counter ⟨1, by decide⟩)]
    ends := #[.new 1 (.path ""), .new 0 (.path ""), .new 3 (.path ""), .new 2 (.path "")] }

/-- They are registered one after the other; the stream waits for room. -/
def ground : Loop :=
  [(0, Interest.readable), (1, .readable), (2, .readable), (3, .both), (4, .readable)].foldl
    (fun l x => (l.register (some x.1) x.2).2)
    { host := (System.init (.standard .live) groundHost).2
      system := (System.init (.standard .live) groundHost).1.toOption.getD .absent }

/-- The values of the generator are raised and published, and beside that a single value is behind
the stream, and beside that are a receiver and the listener. -/
def garrisonTree : Tree (Leaf Post.payload (fun _ : Unit => .int)) (fun p q => p.Val → q.Val) .unit
    (.choice (.outcome .unit) (.choice .text (.choice .bytes .connection))) :=
  .both none .tagged []
    (.chain (.map (.leaf (.station Post.generator)) (· + (10 : Int64))) (.leaf (.publish ())))
    (.both none .tagged [] (.chain (.leaf (.station Post.stream)) (.leaf (.station Post.mono)))
      (.both none .tagged [] (.leaf (.station Post.signal)) (.leaf (.station Post.listener))))

theorem bell?_garrison {id fd : Nat} (h : (garrison.cast ()).channels.bell? id = some fd) :
    id = 9 ∧ fd = 5 := by
  unfold Channels.bell? Channels.get? garrison at h
  by_cases hid : id = 9
  · subst hid
    cases h
    exact ⟨rfl, rfl⟩
  · rw [List.lookup_cons, beq_false_of_ne hid] at h
    cases h

theorem sound_garrison : Sound (garrison, ground) where
  placed i := by
    refine ⟨?_, ?_⟩
    · cases i with
      | generator => exact ⟨0, 0, .readable, rfl, rfl, by decide +kernel, by decide +kernel⟩
      | mono => exact ⟨1, 1, .readable, rfl, rfl, by decide +kernel, by decide +kernel⟩
      | signal => exact ⟨2, 2, .readable, rfl, rfl, by decide +kernel, by decide +kernel⟩
      | stream => exact ⟨3, 3, .both, rfl, rfl, by decide +kernel, by decide +kernel⟩
      | listener => exact ⟨4, 4, .readable, rfl, rfl, by decide +kernel, by decide +kernel⟩
    · cases i with
      | signal =>
        intro c hc
        cases hc
        rfl
      | _ => trivial
  apart i j fd hi hj := by
    cases i <;> cases j <;> cases hi <;> cases hj <;> rfl
  belled k := by
    refine ⟨fun id fd hfd => ?_, fun id id' fd hid hid' => ?_⟩
    · obtain ⟨-, rfl⟩ := bell?_garrison hfd
      exact ⟨⟨1, by decide⟩, rfl⟩
    · rw [(bell?_garrison hid).1, (bell?_garrison hid').1]
  casts_apart _ _ _ _ _ := rfl
  bells_apart k i fd hk hi := by
    obtain ⟨id, hid⟩ := hk
    obtain ⟨-, rfl⟩ := bell?_garrison hid
    cases i <;> cases hi

/-- An event of the stream: it has got room, so it is watched for less, and its value goes to the
single value behind it. Nobody else has changed. -/
theorem react_event_spec_garrison : Sound (garrison, ground) ∧
    ground.watched.filter (·.descriptor == 3) = [⟨3, 3, Interest.both.mask⟩] ∧
    ∃ w, ((garrisonTree.react (behaviour fun f v => pure (f v))
        (.event ⟨3, .ofFlags false true false⟩)).run (garrison, ground)).2 = w ∧
      w.2.watched.filter (·.descriptor == 3) = [⟨3, 3, Interest.readable.mask⟩] ∧
      ∀ i, i ≠ .stream → Untouched i (garrison, ground) w := by
  obtain ⟨-, -, -, huntouched, -⟩ := react_event_spec (fun f v => pure (f v)) garrisonTree
    ⟨3, .ofFlags false true false⟩ (garrison, ground) sound_garrison
    fun _ _ w hw => ⟨hw, fun i => .refl i w⟩
  refine ⟨sound_garrison, by decide +kernel, _, rfl, by decide +kernel, fun i hi => ?_⟩
  refine huntouched i fun htoken => ?_
  cases i with
  | stream => exact hi rfl
  | _ => cases htoken

end Fleet

end EventLoop

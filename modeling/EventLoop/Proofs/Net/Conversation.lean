import EventLoop.Proofs.Host.Streams

/-!
# What a stream reads

A loop holds one end of a stream; somebody holds the other end, sends, receives,
closes the sending direction or goes altogether.  The stream may stand in a tree or not;
it is read by the same call.  Beside the state runs what was sent to the stream and what
was read from it.  A read that asks for something gives nothing only when the other side
has ended and everything it sent was read, and only then does a read that succeeds make
the loop forget that the stream is readable.

A read that asks for nothing is another matter: it is answered with nothing while there
are bytes to read, which looks like the end of the stream.

## Main definitions

* `Dialogue` — a stream and its loop, with what was sent and read so far.
* `Dialogue.Act`, `Dialogue.act` — what either side does, and what is left then.
* `Dialogue.Reachable near` — the states of a stream whose end has the number `near`.
* `Dialogue.left`, `Dialogue.Over` — what is left to read; nothing is, and nothing will be.

## Main results

* `Dialogue.Sound.act` — what is sent is either read or left to be read.
* `Dialogue.Reachable.read_spec` — **what a read gives, and what becomes of the latch.**
-/

namespace EventLoop

/-- A stream of a loop, and what was said on it. -/
structure Dialogue where
  /-- The stream. -/
  own : Evented Socket
  /-- The loop. -/
  loop : Loop
  /-- What the other side has sent. -/
  sent : List UInt8
  /-- What was read here. -/
  got : List UInt8
  /-- The other side has closed its sending direction, or is gone. -/
  ended : Bool

/-- A read is what the host receives; its answer says what becomes of the latch. -/
theorem Evented.read_eq (e : Evented Socket) (most : Nat) (l : Loop) :
    e.read most l
      = ((l.host.calm.receive e.inner.descriptor most).1.mapError (.os .receive),
        e.afterRead ((l.host.calm.receive e.inner.descriptor most).1.mapError (.os .receive)),
        { l with host := (l.host.calm.receive e.inner.descriptor most).2 }) := by
  unfold read
  rw [Socket.read_eq]

/-- A read that succeeds leaves the latch unless it has given nothing. -/
theorem Evented.readable_afterRead {ι : Type} (e : Evented ι) (bytes : List UInt8) :
    (e.afterRead (.ok bytes)).readable = (e.readable && !bytes.isEmpty) := by
  cases bytes with
  | nil => exact (Bool.and_false _).symm
  | cons b rest => exact (Bool.and_true _).symm

namespace Socket

variable {h : Host} {s : Socket} {fd : Option Nat} {near : Nat}

/-- What is written goes to the other end. -/
theorem passes_write (hp : h.Paired) (hs : h.streamOf s.descriptor = .ok near)
    (bytes : List UInt8) : h.Passes fd near [] [] false (s.write bytes h).2 := by
  rw [write_eq]
  split
  next k h' hsend => exact .after (.calm h fd near) (.send_near hp hs hsend)
  next => exact .calm h fd near

theorem passes_shutSend (hp : h.Paired) (hs : h.streamOf s.descriptor = .ok near) :
    h.Passes fd near [] [] false (s.shutSend h).2 := by
  unfold shutSend
  split
  next h' hshut => exact .shutSend_near hp hs hshut
  next => exact .refl h fd near

end Socket

namespace Dialogue

/-- What can happen. -/
inductive Act
  /-- The other side sends bytes. -/
  | say (fd : Option Nat) (bytes : List UInt8)
  /-- The other side sends zero bytes until no more are taken. -/
  | flood (fd : Option Nat)
  /-- The other side receives. -/
  | hear (fd : Option Nat) (most : Nat)
  /-- The other side closes its sending direction. -/
  | hush (fd : Option Nat)
  /-- The other side goes. -/
  | leave (fd : Nat)
  /-- The stream is read. -/
  | read (most : Nat)
  /-- The stream is written to. -/
  | write (bytes : List UInt8)
  /-- The sending direction of the stream is closed. -/
  | shut
  /-- The stream is put to another use. -/
  | tend (u : Evented.Use Socket)
  /-- Something else happens, on the host, to the loop or to the latches of the stream. -/
  | elsewhere (own : Evented Socket) (l : Loop)

/-- The host is in another state. -/
def withHost (d : Dialogue) (h : Host) : Dialogue := { d with loop := { d.loop with host := h } }

/-- The stream and its loop are in another state. -/
def withOwn (d : Dialogue) (x : Evented Socket × Loop) : Dialogue :=
  { d with own := x.1, loop := x.2 }

/-- What is left after an act. -/
def act (d : Dialogue) : Act → Dialogue
  | .say fd bytes =>
    match d.loop.host.send fd bytes with
    | .ok (_, h) => { d.withHost h with sent := d.sent ++ bytes }
    | .error _ => d
  | .flood fd =>
    { d.withHost (d.loop.host.fill fd) with
      sent := d.sent ++ List.replicate (d.loop.host.room fd) 0 }
  | .hear fd most => d.withHost (d.loop.host.receive fd most).2
  | .hush fd =>
    match d.loop.host.shutSend fd with
    | .ok h => { d.withHost h with ended := true }
    | .error _ => d
  | .leave fd => { d.withHost (d.loop.host.close fd) with ended := true }
  | .read most =>
    { d.withOwn (d.own.read most d.loop).2 with
      got := d.got ++ (d.own.read most d.loop).1.toOption.getD [] }
  | .write bytes => d.withOwn (d.own.write bytes d.loop).2
  | .shut => d.withHost (d.own.inner.shutSend d.loop.host).2
  | .tend u => d.withOwn (u.run d.own d.loop)
  | .elsewhere own l => d.withOwn (own, l)

/-- The other side is the one at the other end, and whatever else happens leaves the near end
alone. -/
def Fits (d : Dialogue) (near : Nat) : Act → Prop
  | .say fd _ | .flood fd | .hear fd _ | .hush fd => d.loop.host.Faces fd near
  | .leave fd => d.loop.host.Leaves fd near
  | .read _ | .write _ | .shut => True
  | .tend u => u.Keeps d.own
  | .elsewhere own l => own.inner.descriptor = d.own.inner.descriptor ∧ l.host.Paired ∧
      l.host.streamOf own.inner.descriptor = .ok near ∧ l.host.end? near = d.loop.host.end? near

/-- The states of a stream whose end has the number `near`: any state of a connected stream, and
what comes of it. -/
inductive Reachable (near : Nat) : Dialogue → Prop
  /-- Some bytes may have arrived, and the other side may have ended already, perhaps abruptly. -/
  | start {own : Evented Socket} {l : Loop} {e : StreamEnd} (hpaired : l.host.Paired)
      (hstream : l.host.streamOf own.inner.descriptor = .ok near)
      (hend : l.host.end? near = some e)
      (hfault : ∀ errno, e.fault = some errno →
        e.receiveShut = true ∧ errno = .connectionReset) :
      Reachable near ⟨own, l, e.unread, [], e.receiveShut⟩
  /-- Something happens. -/
  | act {d : Dialogue} (a : Act) (ha : d.Fits near a) : Reachable near d → Reachable near (d.act a)

/-- What was sent and not read. -/
def left (d : Dialogue) : List UInt8 := d.sent.drop d.got.length

/-- The other side has ended, and everything was read. -/
def Over (d : Dialogue) : Prop := d.ended = true ∧ d.left = []

/-- What a read for at most so many bytes can give. -/
inductive Gives (d : Dialogue) (most : Nat) : Except Failure (List UInt8) → Prop
  /-- There are bytes to read. -/
  | bytes (hleft : d.left ≠ []) : Gives d most (.ok (d.left.take most))
  /-- There are none, and none will come. -/
  | nothing (hover : d.Over) : Gives d most (.ok [])
  /-- The same; the other side went without having read everything, and this is told once. -/
  | reset (hover : d.Over) : Gives d most (.error (.os .receive .connectionReset))
  /-- There are none yet. -/
  | wait (hleft : d.left = []) (hended : d.ended = false) :
    Gives d most (.error (.os .receive .wouldBlock))

namespace Gives

variable {d : Dialogue} {most : Nat} {bytes : List UInt8}

/-- A read that succeeds gives the next bytes. -/
theorem eq_take (h : d.Gives most (.ok bytes)) : bytes = d.left.take most := by
  cases h with
  | bytes => rfl
  | nothing hover => rw [hover.2, List.take_nil]

/-- It gives nothing at the end of the stream, or when it asks for nothing. -/
theorem eq_nil_iff (h : d.Gives most (.ok bytes)) :
    bytes = [] ↔ d.Over ∨ (most = 0 ∧ d.left ≠ []) := by
  cases h with
  | bytes hleft =>
    rw [List.take_eq_nil_iff]
    constructor
    · intro hnil
      exact .inr ⟨hnil.resolve_right hleft, hleft⟩
    · rintro (hover | hzero)
      · exact absurd hover.2 hleft
      · exact .inl hzero.1
  | nothing hover => exact iff_of_true rfl (.inl hover)

end Gives

/-! ### What is sent is read or left to be read -/

/-- What holds in every state: what was sent is what was read and what has arrived since, and the
near end knows whether the other side has ended. -/
structure Sound (near : Nat) (d : Dialogue) : Prop where
  paired : d.loop.host.Paired
  stream : d.loop.host.streamOf d.own.inner.descriptor = .ok near
  near : ∃ e, d.loop.host.end? near = some e ∧ d.sent = d.got ++ e.unread ∧
    e.receiveShut = d.ended ∧
    ∀ errno, e.fault = some errno → d.ended = true ∧ errno = .connectionReset

variable {near : Nat} {d : Dialogue}

theorem left_of_sent {rest : List UInt8} (hsent : d.sent = d.got ++ rest) : d.left = rest := by
  rw [left, hsent, List.drop_left]

namespace Sound

/-- What was said, heard and ended in between is what the host says. -/
theorem step (hd : Sound near d) {own : Evented Socket} {l : Loop} {said heard : List UInt8}
    {ended : Bool} (hdesc : own.inner.descriptor = d.own.inner.descriptor)
    (hpass : d.loop.host.Passes d.own.inner.descriptor near said heard ended l.host) :
    Sound near ⟨own, l, d.sent ++ said, d.got ++ heard, d.ended || ended⟩ := by
  obtain ⟨e, he, hsent, hshut, hfault⟩ := hd.near
  obtain ⟨e', he', hend⟩ := hpass.near e he
  refine ⟨hd.paired.of_peer? hpass.peer?_eq, ?_, e', he', ?_, ?_, fun errno h => ?_⟩
  · show l.host.streamOf own.inner.descriptor = .ok near
    rw [hdesc]
    exact hpass.stream hd.stream
  · show d.sent ++ said = d.got ++ heard ++ e'.unread
    rw [hsent, List.append_assoc, hend.unread_eq, List.append_assoc]
  · show e'.receiveShut = (d.ended || ended)
    rw [hend.receiveShut_eq, hshut]
  · show (d.ended || ended) = true ∧ errno = .connectionReset
    rw [Bool.or_eq_true]
    rcases hend.fault errno h with hold | hnew
    · exact (hfault errno hold).imp_left .inl
    · exact hnew.imp_left .inr

/-- Nothing was said, heard or ended in between. -/
theorem quiet (hd : Sound near d) {own : Evented Socket} {l : Loop}
    (hdesc : own.inner.descriptor = d.own.inner.descriptor)
    (hpass : d.loop.host.Passes d.own.inner.descriptor near [] [] false l.host) :
    Sound near (d.withOwn (own, l)) := by
  have hstep := hd.step hdesc hpass
  rwa [List.append_nil, List.append_nil, Bool.or_false] at hstep

/-- A read gives what it can give, and takes that out of the near end. -/
theorem read (hd : Sound near d) (most : Nat) : d.Gives most (d.own.read most d.loop).1 ∧
    d.loop.host.Passes d.own.inner.descriptor near []
      ((d.own.read most d.loop).1.toOption.getD []) false (d.own.read most d.loop).2.2.host := by
  obtain ⟨e, he, hsent, hshut, hfault⟩ := hd.near
  have hleft := left_of_sent hsent
  rw [Evented.read_eq]
  dsimp only
  -- signals are none of its business
  have hcalm := Host.Passes.calm d.loop.host d.own.inner.descriptor near
  rcases Host.receive_spec (h := d.loop.host.calm) hd.stream he most with
    ⟨hne, hr, hpass⟩ | ⟨hnone, hpass, hr⟩
  · replace hpass := hcalm.after hpass
    rw [hr]
    rw [← hleft] at hne hpass ⊢
    exact ⟨.bytes hne, hpass⟩
  · replace hpass := hcalm.after hpass
    rw [← hleft] at hnone
    rw [hr]
    cases hf : e.fault with
    | some errno =>
      obtain ⟨hended, rfl⟩ := hfault errno hf
      exact ⟨.reset ⟨hended, hnone⟩, hpass⟩
    | none =>
      cases hended : e.receiveShut with
      | true => exact ⟨.nothing ⟨hshut.symm.trans hended, hnone⟩, hpass⟩
      | false => exact ⟨.wait hnone (hshut.symm.trans hended), hpass⟩

/-- **Whatever happens, what is sent is either read or left to be read.** -/
theorem act (hd : Sound near d) {a : Act} (ha : d.Fits near a) : Sound near (d.act a) := by
  cases a with
  | say fd bytes =>
    unfold Dialogue.act
    dsimp only
    split
    next k h hs =>
      have hstep := hd.step (l := { d.loop with host := h }) rfl (.send ha hs)
      rwa [List.append_nil, Bool.or_false] at hstep
    next => exact hd
  | flood fd =>
    have hstep := hd.step (l := { d.loop with host := d.loop.host.fill fd }) rfl (.fill ha)
    rwa [List.append_nil, Bool.or_false] at hstep
  | hear fd most =>
    obtain ⟨far, hs, hpeer⟩ := ha
    exact hd.quiet (l := { d.loop with host := _ }) rfl
      (.receive_of_ne hs (hd.paired far near hpeer).1.symm most)
  | hush fd =>
    unfold Dialogue.act
    dsimp only
    split
    next h hs =>
      have hstep := hd.step (l := { d.loop with host := h }) rfl (.shutSend hd.paired ha hs)
      rwa [List.append_nil, List.append_nil, Bool.or_true] at hstep
    next => exact hd
  | leave fd =>
    have hstep := hd.step (l := { d.loop with host := d.loop.host.close fd }) rfl
      (.close hd.paired ha)
    rwa [List.append_nil, List.append_nil, Bool.or_true] at hstep
  | read most =>
    have hdesc : (d.own.read most d.loop).2.1.inner.descriptor = d.own.inner.descriptor := by
      rw [Evented.read_eq]
      exact congrArg Socket.descriptor (Evented.sameSetting_afterRead _ _).inner_eq
    have hstep := hd.step hdesc (hd.read most).2
    rwa [List.append_nil, Bool.or_false] at hstep
  | write bytes =>
    have hwrite : d.loop.host.Passes d.own.inner.descriptor near [] [] false _ :=
      Socket.passes_write hd.paired hd.stream bytes
    rcases hr : d.own.inner.write bytes d.loop.host with ⟨r, h⟩
    rw [hr] at hwrite
    -- what becomes of latch and interest is a use of the stream
    let u : Evented.Use Socket := .write d.own.inner r
    have heq : (d.own.write bytes d.loop).2 = u.run d.own { d.loop with host := h } := by
      unfold Evented.write
      rw [hr]
      rfl
    show Sound near (d.withOwn (d.own.write bytes d.loop).2)
    rw [heq]
    exact hd.quiet (Evented.Use.descriptor_run (u := u) rfl _)
      (hwrite.after (.of_rewatches (u.rewatches_run d.own { d.loop with host := h })))
  | shut =>
    exact hd.quiet (l := { d.loop with host := _ }) rfl (Socket.passes_shutSend hd.paired hd.stream)
  | tend u =>
    exact hd.quiet (Evented.Use.descriptor_run ha d.loop) (.of_rewatches (u.rewatches_run d.own d.loop))
  | elsewhere own l =>
    obtain ⟨hdesc, hpaired, hstream, hend⟩ := ha
    obtain ⟨e, he, hrest⟩ := hd.near
    exact ⟨hpaired, hstream, e, hend.trans he, hrest⟩

end Sound

/-! ### Reading -/

namespace Reachable

theorem sound (hd : Reachable near d) : Sound near d := by
  induction hd with
  | start hpaired hstream hend hfault => exact ⟨hpaired, hstream, _, hend, rfl, rfl, hfault⟩
  | act a ha _ ih => exact ih.act ha

/-- **What a read gives, and what becomes of the latch**, whatever was sent and read before and
however much is asked for, of a stream by itself or of a stage of a tree.  A read that succeeds gives the next bytes that were sent.  It gives
nothing when the other side has ended and everything was read, and when it asks for nothing
although there is something to read; in these cases, and in no other, it clears the latch. -/
theorem read_spec (hd : Reachable near d) (most : Nat) :
    d.sent = d.got ++ d.left ∧ d.Gives most (d.own.read most d.loop).1 ∧
    (∀ bytes, (d.own.read most d.loop).1 = .ok bytes →
      bytes = d.left.take most ∧
      (bytes = [] ↔ d.Over ∨ (most = 0 ∧ d.left ≠ [])) ∧
      (d.own.read most d.loop).2.1.readable = (d.own.readable && !bytes.isEmpty)) ∧
    (0 < most → ∀ bytes, (d.own.read most d.loop).1 = .ok bytes →
      (bytes = [] ↔ d.Over) ∧
      (d.own.readable = true → ((d.own.read most d.loop).2.1.readable = false ↔ d.Over))) := by
  have hsent : d.sent = d.got ++ d.left := by
    obtain ⟨e, -, hsent, -⟩ := hd.sound.near
    rw [left_of_sent hsent]
    exact hsent
  have hgives := (hd.sound.read most).1
  have hbytes : ∀ bytes, (d.own.read most d.loop).1 = .ok bytes →
      bytes = d.left.take most ∧ (bytes = [] ↔ d.Over ∨ (most = 0 ∧ d.left ≠ [])) ∧
      (d.own.read most d.loop).2.1.readable = (d.own.readable && !bytes.isEmpty) := by
    intro bytes hr
    rw [hr] at hgives
    refine ⟨hgives.eq_take, hgives.eq_nil_iff, ?_⟩
    rw [Evented.read_eq] at hr ⊢
    dsimp only at hr ⊢
    rw [hr, Evented.readable_afterRead]
  refine ⟨hsent, hgives, hbytes, fun hmost bytes hr => ?_⟩
  obtain ⟨-, hnil, hlatch⟩ := hbytes bytes hr
  -- with room for a byte the empty answer has one reason left
  have hover : bytes = [] ↔ d.Over := by
    rw [hnil]
    exact ⟨fun h => h.resolve_right fun hzero => by omega, .inl⟩
  refine ⟨hover, fun hreadable => ?_⟩
  rw [hlatch, hreadable, Bool.true_and, ← hover]
  cases bytes with
  | nil => exact iff_of_true rfl rfl
  | cons b rest => exact iff_of_false (fun h => nomatch h) (fun h => nomatch h)

/-! ### A run -/

/-- A new loop on a host with a stream between the descriptors 2 and 3. -/
def coupledLoop : Loop where
  host := match (System.init (.standard .live) (.initial .silent)).2.pair with
    | .ok (_, h) => h
    | .error _ => .initial .silent
  system := (System.init (.standard .live) (.initial .silent)).1.toOption.getD .absent

/-- The stream at 2 belongs to the loop, and nothing was said yet. -/
def silence : Dialogue := ⟨.new ⟨.unix, some 2⟩ .readable, coupledLoop, [], [], false⟩

theorem silence_reachable : Reachable 0 silence :=
  .start (e := .new 1 (.path "")) ((Host.paired_initial .silent).connectEnds (.path "") (.path ""))
    (by decide +kernel) (by decide +kernel) (fun _ h => nomatch h)

/-- The stream is registered, the other side sends two bytes, and the stream hears of it. -/
def greeting : Dialogue :=
  ((silence.act (.tend .register)).act (.say (some 3) [104, 105])).act
    (.tend (.accept ⟨0, .ofFlags true false false⟩))

theorem greeting_reachable : Reachable 0 greeting := by
  have hregistered := silence_reachable.act (.tend .register) trivial
  have hsaid := hregistered.act (.say (some 3) [104, 105]) ⟨1, by decide +kernel, by decide +kernel⟩
  exact hsaid.act (.tend (.accept ⟨0, .ofFlags true false false⟩)) trivial

/-- The stream is read, and the other side ends. -/
def farewell : Dialogue := (greeting.act (.read 256)).act (.hush (some 3))

theorem farewell_reachable : Reachable 0 farewell := by
  have hread := greeting_reachable.act (.read 256) trivial
  exact hread.act (.hush (some 3)) ⟨1, by decide +kernel, by decide +kernel⟩

/-- Everything was read, so the next read gives nothing and clears the latch. -/
theorem read_spec_farewell : farewell.got = [104, 105] ∧ farewell.own.readable = true ∧
    (farewell.own.read 256 farewell.loop).1 = .ok [] ∧
    (farewell.own.read 256 farewell.loop).2.1.readable = false := by
  have hover : farewell.Over := ⟨by decide +kernel, by decide +kernel⟩
  have hreadable : farewell.own.readable = true := by decide +kernel
  have hr : (farewell.own.read 256 farewell.loop).1 = .ok [] := by decide +kernel
  obtain ⟨-, -, -, hread⟩ := farewell_reachable.read_spec 256
  exact ⟨by decide +kernel, hreadable, hr, ((hread (by decide) [] hr).2 hreadable).mpr hover⟩

/-- **A read that asks for nothing looks like the end of the stream.**  The other side has not
ended and both bytes are there; but the read is answered with nothing, and clears the latch. -/
theorem not_over_of_read_zero : Reachable 0 greeting ∧ greeting.ended = false ∧
    greeting.left = [104, 105] ∧ greeting.own.readable = true ∧
    (greeting.own.read 0 greeting.loop).1 = .ok [] ∧
    (greeting.own.read 0 greeting.loop).2.1.readable = false :=
  ⟨greeting_reachable, by decide +kernel, by decide +kernel, by decide +kernel, by decide +kernel,
    by decide +kernel⟩

end Reachable
end Dialogue
end EventLoop

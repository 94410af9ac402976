import EventLoop.Proofs.Channel.Exchange
import EventLoop.Proofs.Registration.Tenancy
import EventLoop.Proofs.Registration.Watching
import EventLoop.Proofs.Tree.Producers

/-!
# The bell of a producer

A producer rings its bell when the first value comes to an empty queue, and silences it
when the last one leaves.  The loop comes back to it by its bell alone, so the bell has to
tell at every moment whether there is a value to give.

## Main definitions

* `Notifier.Rings` — a flag with a descriptor, set or not.
* `Notifier.Tells` — the flag is set exactly while a queue holds something.
* `Producer.Act`, `Producer.run` — turns of a producer, values put into it, and whatever
  else happens on the host.
* `Exchange.Quiet`, `Producer.Quiet` — nobody else touches the bell in a run.

## Main results

* `Notifier.Tells.push`, `Notifier.Tells.pop` — a queue grows or shrinks, its bell follows.
* `Exchange.tells_act`, `Producer.tells_act` — every step keeps bell and queue in step.
* `Producer.bell_spec` — **a producer is readable exactly while it has something to give.**

## Rules

* A bell that never got a descriptor tells nothing.  A generator or a single value without
  one is never made, because it could not be registered; a channel is made all the same.
* The bell of a channel whose receiver is gone may go on ringing for values that went with it.
-/

namespace EventLoop

variable {α : Type}

/-! ### Flags -/

theorem Host.isReadable_counter {h : Host} {fd : Option Nat} {c : Counter}
    (ho : h.objectOf? fd = some (.counter c)) : h.isReadable fd = c.isReadable := by
  unfold isReadable readiness
  rw [ho]
  dsimp only [mask]
  cases c.isReadable <;> rfl

namespace Notifier

variable {n : Notifier} {h h' : Host} {b : Bool} {q : List α}

/-- The flag has a descriptor, and it is set or not. A flag is never counted beyond one. -/
def Rings (n : Notifier) (h : Host) (b : Bool) : Prop :=
  ∃ c : Counter, h.objectOf? n.descriptor = some (.counter c) ∧ c.value = b.toNat

theorem Rings.isSet_eq (hn : n.Rings h b) : n.isSet h = b := by
  obtain ⟨c, ho, hc⟩ := hn
  rw [isSet, Host.isReadable_counter ho, Counter.isReadable, hc]
  cases b <;> rfl

theorem Rings.congr (hn : n.Rings h b)
    (ho : h'.objectOf? n.descriptor = h.objectOf? n.descriptor) : n.Rings h' b := by
  obtain ⟨c, hc, hb⟩ := hn
  exact ⟨c, ho.trans hc, hb⟩

/-- A flag that rings has a descriptor with a counter behind it. -/
theorem Rings.exists_descriptor (hn : n.Rings h b) : ∃ fd c, n.descriptor = some fd ∧
    h.object? fd = some (.counter c) ∧ c.value = b.toNat := by
  obtain ⟨c, ho, hc⟩ := hn
  cases hd : n.descriptor with
  | none =>
    rw [hd] at ho
    cases ho
  | some fd =>
    rw [hd] at ho
    exact ⟨fd, c, rfl, ho, hc⟩

theorem rings_create (hd : (create h).1.descriptor ≠ none) :
    (create h).1.Rings (create h).2 false := by
  obtain hnone | ⟨fd, hfd, -, hobj⟩ := create_spec h
  · exact absurd hnone hd
  · refine ⟨.zero, ?_, rfl⟩
    rw [hfd, Host.objectOf?_some, hobj, if_pos rfl]

theorem Rings.set (hn : n.Rings h false) : n.Rings (n.set h) true := by
  obtain ⟨fd, c, hd, ho, hc⟩ := hn.exists_descriptor
  have hone : (c.signal 1).2.value = 1 := by
    have hle : 1 ≤ Counter.max := by decide
    simp [Counter.signal, Counter.add, hc, hle]
  refine ⟨(c.signal 1).2, ?_, hone⟩
  simp only [Notifier.set, signal, hd, ho, Host.objectOf?_some]
  rw [Host.object?_setObject ho, if_pos rfl]

theorem Rings.clear (hn : n.Rings h b) : n.Rings (n.clear h) false := by
  obtain ⟨fd, c, hd, ho, -⟩ := hn.exists_descriptor
  refine ⟨.zero, ?_, rfl⟩
  simp only [Notifier.clear, hd, ho, Host.objectOf?_some]
  rw [Host.object?_setObject ho, if_pos rfl, Counter.drain_snd]

/-! ### Flags beside queues -/

/-- The flag is set exactly while the queue holds something. -/
def Tells (n : Notifier) (q : List α) (h : Host) : Prop := n.Rings h !q.isEmpty

theorem Tells.isSet_iff (hn : n.Tells q h) : n.isSet h = true ↔ q ≠ [] := by
  rw [Rings.isSet_eq hn]
  simp

theorem Tells.congr (hn : n.Tells q h)
    (ho : h'.objectOf? n.descriptor = h.objectOf? n.descriptor) : n.Tells q h' :=
  Rings.congr hn ho

/-- A value joins the queue, and the first one sets the flag. -/
theorem Tells.push (hn : n.Tells q h) (v : α) :
    n.Tells (q ++ [v]) (if q.isEmpty then n.set h else h) := by
  cases q with
  | nil => exact Rings.set hn
  | cons w rest => exact hn

/-- A value leaves the queue, and the last one clears the flag. -/
theorem Tells.pop {v : α} {rest : List α} (hn : n.Tells (v :: rest) h) :
    n.Tells rest (if rest.isEmpty then n.clear h else h) := by
  cases rest with
  | nil => exact Rings.clear hn
  | cons w rest => exact hn

end Notifier

/-! ### Channels -/

namespace Channel

variable {c c' : Channel α} {v : α} {h h' : Host}

theorem tells_send (hc : c.bell.Tells c.queue h) (hs : c.send v h = .ok (c', h')) :
    c'.bell = c.bell ∧ c'.bell.Tells c'.queue h' := by
  obtain ⟨-, -, rfl⟩ := send_ok hs
  rw [host_send hs]
  exact ⟨rfl, hc.push v⟩

theorem tells_receive (hc : c.bell.Tells c.queue h) (hr : c.receive h = .ok (v, c', h')) :
    c'.bell = c.bell ∧ c'.bell.Tells c'.queue h' := by
  obtain ⟨rest, hq, rfl, rfl⟩ := receive_ok hr
  rw [hq] at hc
  exact ⟨rfl, hc.pop⟩

theorem tells_resume (hc : c.bell.Tells c.queue h) :
    (c.resume h).2.1.bell.Tells (c.resume h).2.1.queue (c.resume h).2.2 := by
  unfold resume
  dsimp only
  split
  next w d h' hr =>
    have hparked : Notifier.Tells { c with parked := c.parked - 1 }.bell c.queue h := hc
    exact (tells_receive hparked hr).2
  next e hr => exact hc

end Channel

namespace Exchange

variable {s : Exchange α}

/-- As long as the receiver is there, the bell tells of the values that are queued. -/
def Tells (s : Exchange α) : Prop :=
  s.receiver = true → s.channel.bell.Tells s.channel.queue s.host

/-- What happens elsewhere on the host leaves the bell as it is. -/
def LeavesBell (s : Exchange α) : Act α → Prop
  | .elsewhere h =>
    h.objectOf? s.channel.bell.descriptor = s.host.objectOf? s.channel.bell.descriptor
  | _ => True

/-- Only the channel itself touches its bell in a run. -/
def Quiet (s : Exchange α) : List (Act α) → Prop
  | [] => True
  | a :: acts => s.LeavesBell a ∧ (s.act a).2.Quiet acts

theorem tells_start {capacity : Capacity} {h : Host}
    (hd : (start capacity h : Exchange α).channel.bell.descriptor ≠ none) :
    (start capacity h : Exchange α).Tells :=
  fun _ => Notifier.rings_create hd

theorem tells_send (hs : s.Tells) (v : α) : (s.send v).2.Tells := by
  unfold send
  split
  next c h hsend => exact fun hlive => (Channel.tells_send (hs hlive) hsend).2
  next => exact hs

theorem tells_poll (hs : s.Tells) : s.poll.2.Tells := by
  unfold poll
  split
  next v c h hr => exact fun hlive => (Channel.tells_receive (hs hlive) hr).2
  next => exact hs

theorem tells_finish (hs : s.Tells) (w : Patience) (others : List Patience) :
    (s.finish w others).2.Tells :=
  fun hlive => Channel.tells_resume (hs hlive)

theorem tells_await (hs : s.Tells) (w : Patience) : (s.await w).2.Tells := by
  have hpark : Tells { s with channel := s.channel.park } := hs
  unfold await
  dsimp only
  split
  · exact tells_finish hpark w s.calls
  · exact hs

/-- **Every step keeps the bell of a channel in step with its queue.** -/
theorem tells_act (hs : s.Tells) {a : Act α} (ha : s.LeavesBell a) : (s.act a).2.Tells := by
  cases a with
  | issue p =>
    simp only [act]
    split <;> exact hs
  | copy p q =>
    simp only [act]
    split <;> exact hs
  | swap p q => exact hs
  | drop p =>
    simp only [act]
    split <;> exact hs
  | send p v =>
    simp only [act]
    split
    · exact tells_send hs v
    · exact hs
  | receive w =>
    simp only [act]
    split
    · exact hs
    · split
      · exact tells_poll hs
      · exact tells_await hs w
  | wake n =>
    simp only [act]
    split
    · split
      · exact tells_finish hs _ _
      · exact hs
    · exact hs
  | timeout n =>
    simp only [act]
    split
    · exact tells_finish hs _ _
    · exact hs
  | close =>
    intro hlive
    cases hlive
  | elsewhere h =>
    intro hlive
    exact (hs hlive).congr ha

theorem tells_run (acts : List (Act α)) : ∀ {s : Exchange α}, s.Tells → s.Quiet acts →
    (s.run acts).2.Tells := by
  induction acts with
  | nil =>
    intro s hs _
    exact hs
  | cons a acts ih =>
    intro s hs hq
    exact ih (tells_act hs hq.1) hq.2

end Exchange

/-! ### Generators and single values -/

/-- A resource that could be registered has a descriptor, and what stands behind the
descriptors of resources stays as it is. -/
theorem Evented.host_register_ok {ι : Type} [Pollable ι] {e e' : Evented ι} {l l' : Loop}
    (hr : e.register l = (.ok (), e', l')) : e'.inner = e.inner ∧
      ∃ fd, Pollable.descriptor e.inner = some fd ∧
        ∀ c, l.host.object? fd = some (.counter c) → l'.host.object? fd = some (.counter c) := by
  rw [register_eq] at hr
  obtain ⟨-, rfl, hreg⟩ := registerAt_ok hr
  obtain ⟨-, table, host, -, hadd, rfl⟩ := Loop.registerAt_ok hreg
  obtain ⟨p, fd, watches, watches', -, hfd, hne, hp, -, -, rfl⟩ :=
    Host.control_ok (Poller.add_ok hadd)
  refine ⟨rfl, fd, hfd, fun c hc => ?_⟩
  -- the multiplexer alone has changed
  show (l.host.setObject p (.multiplexer watches')).object? fd = some (.counter c)
  rw [Host.object?_setObject hp, if_neg (Ne.symm hne), hc]

/-- A new flag that could be registered is not set. -/
theorem Notifier.rings_register {l l' : Loop} {e : Evented Notifier}
    (hr : (Evented.new (create l.host).1 .readable).register { l with host := (create l.host).2 }
      = (.ok (), e, l')) : e.inner.Rings l'.host false := by
  obtain ⟨hinner, fd, hfd, hkept⟩ := Evented.host_register_ok hr
  have hd : (create l.host).1.descriptor = some fd := hfd
  have hnew : (create l.host).1.Rings (create l.host).2 false :=
    rings_create (by rw [hd]; exact Option.some_ne_none fd)
  obtain ⟨c, ho, hc⟩ := hnew
  rw [hinner]
  refine ⟨c, ?_, hc⟩
  show l'.host.objectOf? (create l.host).1.descriptor = some (.counter c)
  rw [hd] at ho ⊢
  exact hkept c ho

namespace Generator

theorem tells_create {values : List α} {l l' : Loop} {g : Generator α}
    (hc : create values l = (.ok g, l')) : g.evented.inner.Tells g.queue l'.host := by
  unfold create at hc
  dsimp only at hc
  split at hc
  next e l'' hr =>
    have hnew := Notifier.rings_register hr
    cases hc
    cases values with
    | nil => exact hnew
    | cons v rest => exact hnew.set
  next => cases hc

theorem tells_push {g : Generator α} {h : Host} (hg : g.evented.inner.Tells g.queue h) (v : α) :
    (g.push v h).1.evented.inner.Tells (g.push v h).1.queue (g.push v h).2 :=
  hg.push v

theorem tells_react {g : Generator α} {h : Host} (hg : g.evented.inner.Tells g.queue h)
    (input : Reaction Unit) : (g.react input h).2.1.evented.inner.Tells
      (g.react input h).2.1.queue (g.react input h).2.2 := by
  -- a turn of its own, whether the queue is empty or not
  have hidle : (g.react .idle h).2.1.evented.inner.Tells
      (g.react .idle h).2.1.queue (g.react .idle h).2.2 := by
    unfold react
    cases hq : g.queue with
    | nil =>
      show g.evented.inner.Tells g.queue (g.evented.inner.clear h)
      rw [hq]
      exact Notifier.Rings.clear hg
    | cons v rest =>
      rw [hq] at hg
      exact hg.pop
  cases input with
  | value _ => exact hg
  | idle => exact hidle
  | event e =>
    by_cases howns : g.evented.owns e = true
    · have hown : g.react (.event e) h = g.react .idle h := by
        simp only [react, howns, if_true]
      rw [hown]
      exact hidle
    · simp only [react, howns]
      exact hg

end Generator

namespace Mono

theorem tells_create {v : α} {l l' : Loop} {m : Mono α} (hc : create v l = (.ok m, l')) :
    m.value = some v ∧ m.evented.inner.Tells m.value.toList l'.host := by
  unfold create at hc
  dsimp only at hc
  split at hc
  next e l'' hr =>
    have hnew := Notifier.rings_register hr
    cases hc
    exact ⟨rfl, hnew.set⟩
  next => cases hc

theorem tells_react {m : Mono α} {h : Host} (hm : m.evented.inner.Tells m.value.toList h)
    (input : Reaction Unit) : (m.react input h).2.1.evented.inner.Tells
      (m.react input h).2.1.value.toList (m.react input h).2.2 := by
  unfold react
  cases input with
  | value _ => exact hm
  | idle => exact hm
  | event e =>
    dsimp only
    split
    · -- the flag is cleared in any case, and no value is left
      cases hv : m.value with
      | none =>
        show m.evented.inner.Tells m.value.toList (m.evented.inner.clear h)
        rw [hv]
        exact Notifier.Rings.clear hm
      | some v => exact Notifier.Rings.clear hm
    · exact hm

end Mono

/-! ### Receivers in a tree -/

/-- A receiver in a tree takes from a channel whose bell is its own. -/
theorem Evented.tells_receive {e : Evented Receiver} {t : Channels α} {c : Channel α} {h : Host}
    (hc : t.get? e.inner.channel = some c) (hb : c.bell = e.inner.bell)
    (ht : c.bell.Tells c.queue h) (input : Reaction Unit) :
    ∃ c', (e.receive input t h).2.1.get? e.inner.channel = some c' ∧ c'.bell = e.inner.bell ∧
      c'.bell.Tells c'.queue (e.receive input t h).2.2 := by
  have hidle : ∃ c', (e.receive .idle t h).2.1.get? e.inner.channel = some c' ∧
      c'.bell = e.inner.bell ∧ c'.bell.Tells c'.queue (e.receive .idle t h).2.2 := by
    unfold receive Channels.receive
    rw [hc]
    dsimp only
    cases hr : c.receive h with
    | error f => exact ⟨c, hc, hb, ht⟩
    | ok r =>
      obtain ⟨v, c', h'⟩ := r
      obtain ⟨hbell, htells⟩ := Channel.tells_receive ht hr
      refine ⟨c', ?_, hbell.trans hb, htells⟩
      show (t.set e.inner.channel c').get? e.inner.channel = some c'
      rw [Channels.get?_set, hc]
      rfl
  cases input with
  | value _ => exact ⟨c, hc, hb, ht⟩
  | idle => exact hidle
  | event event =>
    by_cases howns : e.owns event = true
    · have hown : e.receive (.event event) t h = e.receive .idle t h := by
        simp only [receive, howns, if_true]
      rw [hown]
      exact hidle
    · simp only [receive, howns]
      exact ⟨c, hc, hb, ht⟩

namespace Producer

/-! ### Runs of a producer -/

/-- The flag that tells of the values to come. -/
def bell : Producer α → Notifier
  | .generator g => g.evented.inner
  | .mono m => m.evented.inner
  | .signal e _ => e.inner.bell

/-- The bell of a producer tells of the values still to come. A receiver has its bell from a
channel that is in the table. -/
def Tells : Producer α → Host → Prop
  | .generator g, h => g.evented.inner.Tells g.queue h
  | .mono m, h => m.evented.inner.Tells m.value.toList h
  | .signal e t, h => ∃ c, t.get? e.inner.channel = some c ∧ c.bell = e.inner.bell ∧
      c.bell.Tells c.queue h

/-- A step of a producer, or of the host it is on. -/
inductive Act (α : Type)
  /-- It gets a turn. -/
  | react (input : Reaction Unit)
  /-- A value is put into it; it may be refused. -/
  | put (v : α)
  /-- Something else happens on the host. -/
  | elsewhere (h : Host)

variable {x : Producer α} {h : Host}

/-- One step: the values given, and what is left. -/
def act (x : Producer α) (h : Host) : Act α → List α × Producer α × Host
  | .react input => ((x.react input h).1.values, (x.react input h).2)
  | .put v => ([], (x.put v h).getD (x, h))
  | .elsewhere h' => ([], x, h')

/-- Steps one after the other, with all values given. -/
def run (x : Producer α) (h : Host) : List (Act α) → List α × Producer α × Host
  | [] => ([], x, h)
  | a :: acts =>
    ((x.act h a).1 ++ ((x.act h a).2.1.run (x.act h a).2.2 acts).1,
      ((x.act h a).2.1.run (x.act h a).2.2 acts).2)

/-- What happens elsewhere on the host leaves the bell as it is. -/
def LeavesBell (x : Producer α) (h : Host) : Act α → Prop
  | .elsewhere h' => h'.objectOf? x.bell.descriptor = h.objectOf? x.bell.descriptor
  | _ => True

/-- Only the producer itself touches its bell in a run. -/
def Quiet (x : Producer α) (h : Host) : List (Act α) → Prop
  | [] => True
  | a :: acts => x.LeavesBell h a ∧ (x.act h a).2.1.Quiet (x.act h a).2.2 acts

theorem Tells.bell_iff (hx : x.Tells h) : x.bell.isSet h = true ↔ x.queue ≠ [] := by
  cases x with
  | generator g => exact hx.isSet_iff
  | mono m => exact hx.isSet_iff
  | signal e t =>
    obtain ⟨c, hc, hb, ht⟩ := hx
    show e.inner.bell.isSet h = true ↔ t.queue e.inner.channel ≠ []
    rw [Channels.queue_of_get? hc, ← hb]
    exact ht.isSet_iff

theorem Tells.congr (hx : x.Tells h) {h' : Host}
    (ho : h'.objectOf? x.bell.descriptor = h.objectOf? x.bell.descriptor) : x.Tells h' := by
  cases x with
  | generator g => exact Notifier.Tells.congr hx ho
  | mono m => exact Notifier.Tells.congr hx ho
  | signal e t =>
    obtain ⟨c, hc, hb, ht⟩ := hx
    exact ⟨c, hc, hb, ht.congr (hb ▸ ho)⟩

theorem tells_put (hx : x.Tells h) {v : α} {x' : Producer α} {h' : Host}
    (hput : x.put v h = some (x', h')) : x'.Tells h' := by
  cases x with
  | generator g =>
    cases hput
    exact Generator.tells_push hx v
  | mono m => cases hput
  | signal e t =>
    obtain ⟨c, hc, hb, ht⟩ := hx
    unfold put Channels.send at hput
    dsimp only at hput
    rw [hc] at hput
    dsimp only at hput
    cases hs : c.send v h with
    | error f =>
      rw [hs] at hput
      cases hput
    | ok r =>
      obtain ⟨c', h''⟩ := r
      rw [hs] at hput
      cases hput
      obtain ⟨hbell, htells⟩ := Channel.tells_send ht hs
      refine ⟨c', ?_, hbell.trans hb, htells⟩
      rw [Channels.get?_set, hc]
      rfl

/-- **Every step keeps the bell of a producer in step with what it has to give.** -/
theorem tells_act (hx : x.Tells h) {a : Act α} (ha : x.LeavesBell h a) :
    (x.act h a).2.1.Tells (x.act h a).2.2 := by
  cases a with
  | react input =>
    cases x with
    | generator g => exact Generator.tells_react hx input
    | mono m => exact Mono.tells_react hx input
    | signal e t =>
      obtain ⟨c, hc, hb, ht⟩ := hx
      exact Evented.tells_receive hc hb ht input
  | put v =>
    simp only [act]
    cases hput : x.put v h with
    | none => exact hx
    | some r => exact tells_put hx hput
  | elsewhere h' => exact hx.congr ha

theorem tells_run (acts : List (Act α)) : ∀ {x : Producer α} {h : Host}, x.Tells h →
    x.Quiet h acts → (x.run h acts).2.1.Tells (x.run h acts).2.2 := by
  induction acts with
  | nil =>
    intro x h hx _
    exact hx
  | cons a acts ih =>
    intro x h hx hq
    exact ih (tells_act hx hq.1) hq.2

/-- A single value is given or still to come, whatever is put. -/
theorem given_run (acts : List (Act α)) : ∀ {x : Producer α} {h : Host}, x.isMono = true →
    (x.run h acts).1 ++ (x.run h acts).2.1.queue = x.queue := by
  induction acts with
  | nil =>
    intro x h _
    rfl
  | cons a acts ih =>
    intro x h hx
    have hstep : (x.act h a).2.1.isMono = true ∧
        (x.act h a).1 ++ (x.act h a).2.1.queue = x.queue := by
      cases a with
      | react input => exact ⟨(x.isMono_react input h).trans hx, x.values_react input h⟩
      | put v =>
        have hput : x.put v h = none := by
          cases x with
          | mono m => rfl
          | generator g => cases hx
          | signal e t => cases hx
        simp only [act, hput]
        exact ⟨hx, rfl⟩
      | elsewhere h' => exact ⟨hx, rfl⟩
    obtain ⟨hmono, hgiven⟩ := hstep
    simp only [run, List.append_assoc]
    rw [ih hmono, hgiven]

/-- **A producer is readable exactly while it has something to give.**  Senders, receives and
turns come in any order: a channel with a receiver is readable exactly while values are queued,
a generator exactly while its queue is not empty, and a single value exactly until it was
given. -/
theorem bell_spec :
    (∀ (capacity : Capacity) (h : Host) (acts : List (Exchange.Act α)),
      (Exchange.start capacity h : Exchange α).channel.bell.descriptor ≠ none →
      (Exchange.start capacity h).Quiet acts →
      ((Exchange.start capacity h).run acts).2.receiver = true →
        (((Exchange.start capacity h).run acts).2.channel.bell.isSet
            ((Exchange.start capacity h).run acts).2.host = true ↔
          ((Exchange.start capacity h).run acts).2.channel.queue ≠ [])) ∧
    (∀ (values : List α) (l l' : Loop) (g : Generator α) (acts : List (Act α)),
      Generator.create values l = (.ok g, l') →
      (generator g).Quiet l'.host acts →
        (((generator g).run l'.host acts).2.1.bell.isSet
            ((generator g).run l'.host acts).2.2 = true ↔
          ((generator g).run l'.host acts).2.1.queue ≠ [])) ∧
    (∀ (v : α) (l l' : Loop) (m : Mono α) (acts : List (Act α)),
      Mono.create v l = (.ok m, l') →
      (mono m).Quiet l'.host acts →
        (((mono m).run l'.host acts).2.1.bell.isSet ((mono m).run l'.host acts).2.2 = true ↔
          v ∉ ((mono m).run l'.host acts).1)) := by
  refine ⟨?_, ?_, ?_⟩
  · intro capacity h acts hd hq hlive
    exact (Exchange.tells_run acts (Exchange.tells_start hd) hq hlive).isSet_iff
  · intro values l l' g acts hc hq
    have hg : (generator g).Tells l'.host := Generator.tells_create hc
    exact (tells_run acts hg hq).bell_iff
  · intro v l l' m acts hc hq
    obtain ⟨hv, htells⟩ := Mono.tells_create hc
    have hm : (mono m).Tells l'.host := htells
    have hgiven : ((mono m).run l'.host acts).1 ++ ((mono m).run l'.host acts).2.1.queue = [v] := by
      rw [given_run acts rfl]
      show m.value.toList = [v]
      rw [hv]
      rfl
    rw [(tells_run acts hm hq).bell_iff]
    -- the one value is on one side or on the other
    rcases List.append_eq_singleton_iff.mp hgiven with ⟨hl, hr⟩ | ⟨hl, hr⟩
    · simp [hl, hr]
    · simp [hl, hr]

open Loop.Registering (smallStart)

/-- A channel with room for one value. -/
def narrow : Exchange Nat := .start (.bounded 1) (.initial .silent)

/-- A second value is refused. -/
def narrowActs : List (Exchange.Act Nat) :=
  [.elsewhere (narrow.host.note .started), .issue 0, .send 0 7, .send 0 8, .drop 0]

/-- A resource under descriptor 3, registered as the first. -/
def lodged : Evented Notifier := { Evented.new ⟨some 3⟩ .readable with token := some 0 }

/-- A generator that gives its last value, and gets another. -/
def loneActs : List (Act Nat) :=
  [.elsewhere ((Generator.create [1] smallStart).2.host.note .started), .react .idle, .put 3]

/-- A single value that comes out on its own event only. -/
def soleActs : List (Act Nat) := [.react .idle, .react (.event ⟨0, .nothing⟩)]

/-- A value waits behind one that was refused its place, a generator that had given its last value
got another, and a single value was given. -/
theorem bell_spec_trio :
    (narrow.run narrowActs).2.channel.bell.isSet (narrow.run narrowActs).2.host = true ∧
    (Generator.create [1] smallStart).1 = .ok ⟨[1], lodged⟩ ∧
      (∃ x h, (generator ⟨[1], lodged⟩).run (Generator.create [1] smallStart).2.host loneActs
        = ([1], x, h) ∧ x.bell.isSet h = true) ∧
    (Mono.create 5 smallStart).1 = .ok ⟨some 5, lodged⟩ ∧
      (∃ x h, (mono ⟨some 5, lodged⟩).run (Mono.create 5 smallStart).2.host soleActs
        = ([5], x, h) ∧ x.bell.isSet h = false) := by
  refine ⟨?_, rfl, ⟨_, _, rfl, ?_⟩, rfl, ⟨_, _, rfl, ?_⟩⟩
  · refine (bell_spec.1 (.bounded 1) (.initial .silent) narrowActs (Option.some_ne_none 0)
      ⟨rfl, trivial, trivial, trivial, trivial, trivial⟩ rfl).mpr ?_
    exact List.cons_ne_nil 7 []
  · refine (bell_spec.2.1 [1] smallStart (Generator.create [1] smallStart).2 ⟨[1], lodged⟩
      loneActs ?_ ?_).mpr ?_
    · rfl
    · exact ⟨rfl, trivial, trivial, trivial⟩
    · exact List.cons_ne_nil 3 []
  · rw [Bool.eq_false_iff]
    intro hset
    refine (bell_spec.2.2 5 smallStart (Mono.create 5 smallStart).2 ⟨some 5, lodged⟩
      soleActs ?_ ?_).mp hset ?_
    · rfl
    · exact ⟨trivial, trivial, trivial⟩
    · exact List.mem_cons_self

end Producer
end EventLoop

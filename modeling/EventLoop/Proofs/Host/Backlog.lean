import EventLoop.Channel.Broadcast
import EventLoop.Net.Listener
import EventLoop.Proofs.Channel.Basic
import EventLoop.Proofs.Evented.Rewatching

/-!
# Connections that wait to be accepted

A connection waits in the backlog of a listener until it is accepted.  Nothing that
a loop does by itself, with flags, channels, registrations or by closing descriptors,
adds one; accepting takes one away.

## Main definitions

* `Host.backlog` — how many connections wait at a descriptor.
* `Host.Lull h h'` — no connection has arrived at any descriptor.

## Main results

* `Lull.close`, `Lull.allocate`, `Rewatches.lull` — what the loop asks of the host.
* `Host.accept_ok` — **accepting takes one connection away, and none arrives.**
* `Broadcast.lull_publish`, `Evented.accept_spec`, … — what is made of them.
-/

namespace EventLoop

/-- How many connections wait there. -/
def Object.pending : Object → Nat
  | .listener _ backlog => backlog.length
  | _ => 0

namespace Host

variable {h h' h'' : Host} {fd : Nat} {o o' : Object}

/-- How many connections wait at a descriptor. -/
def backlog (h : Host) (fd : Option Nat) : Nat := (h.objectOf? fd).elim 0 Object.pending

/-- No connection has arrived at any descriptor. -/
def Lull (h h' : Host) : Prop := ∀ fd, h'.backlog fd ≤ h.backlog fd

theorem backlog_of_object? (ho : h.object? fd = some o) : h.backlog (some fd) = o.pending := by
  rw [backlog, objectOf?_some, ho, Option.elim_some]

theorem backlog_congr (ho : h'.object? fd = h.object? fd) :
    h'.backlog (some fd) = h.backlog (some fd) := by
  rw [backlog, backlog, objectOf?_some, objectOf?_some, ho]

namespace Lull

theorem refl (h : Host) : Lull h h := fun _ => Nat.le_refl _

theorem trans (h₁ : Lull h h') (h₂ : Lull h' h'') : Lull h h'' := fun fd =>
  Nat.le_trans (h₂ fd) (h₁ fd)

theorem of_object? (hle : ∀ fd, h'.backlog (some fd) ≤ h.backlog (some fd)) : Lull h h'
  | none => Nat.le_refl _
  | some fd => hle fd

theorem note (h : Host) (n : Notice) : Lull h (h.note n) := .refl h

theorem calm (h : Host) : Lull h h.calm := .refl h

/-- An object is replaced by one at which no more connections wait. -/
theorem setObject (ho : h.object? fd = some o) (hle : o'.pending ≤ o.pending) :
    Lull h (h.setObject fd o') := by
  refine .of_object? fun j => ?_
  by_cases hj : j = fd
  · have ho' : (h.setObject fd o').object? j = some o' := by
      rw [object?_setObject ho, if_pos hj]
    rw [backlog_of_object? ho', hj, backlog_of_object? ho]
    exact hle
  · exact Nat.le_of_eq (backlog_congr ((object?_setObject ho o' j).trans (if_neg hj)))

theorem allocate (ha : h.allocate o = .ok (fd, h')) (hnone : o.pending = 0) : Lull h h' := by
  obtain ⟨-, hobj⟩ := allocate_ok ha
  refine .of_object? fun j => ?_
  by_cases hj : j = fd
  · have ho : h'.object? j = some o := by rw [hobj, if_pos hj]
    rw [backlog_of_object? ho, hnone]
    exact Nat.zero_le _
  · exact Nat.le_of_eq (backlog_congr ((hobj j).trans (if_neg hj)))

theorem close (h : Host) (fd : Nat) : Lull h (h.close fd) := by
  cases ho : h.object? fd with
  | none =>
    rw [close_of_vacant ho]
    exact .refl h
  | some o =>
    refine .of_object? fun j => ?_
    rw [backlog, objectOf?_some, object?_close ho]
    split
    · exact Nat.zero_le _
    · -- only multiplexers change, and no connection waits at them
      rw [backlog, objectOf?_some]
      cases h.object? j with
      | none => exact Nat.le_refl 0
      | some o => cases o <;> exact Nat.le_refl _

theorem close? (h : Host) (fd : Option Nat) : Lull h (h.close? fd) := by
  cases fd with
  | none => exact .refl h
  | some fd => exact .close h fd

end Lull

/-- No connection waits at a multiplexer, whatever it watches. -/
theorem Rewatches.lull (hr : h.Rewatches h') : Lull h h' := by
  refine .of_object? fun fd => ?_
  rcases hr.object? fd with heq | ⟨watches, watches', ho, ho'⟩
  · exact Nat.le_of_eq (backlog_congr heq)
  · rw [backlog_of_object? ho, backlog_of_object? ho']
    exact Nat.le_refl 0

/-- An accept that succeeds has found a connection waiting, and a number for its descriptor.  It
tells who is at the other end, if anybody is. -/
theorem accept_eq_ok {listener : Option Nat} {client : Nat × String}
    (ha : h.accept listener = .ok (client, h')) : ∃ fd bound number rest, listener = some fd ∧
      h.object? fd = some (.listener bound (number :: rest)) ∧
      (h.setObject fd (.listener bound rest)).allocate (.stream number) = .ok (client.1, h') ∧
      client.2 = (h'.farName number).toOption.getD "" := by
  unfold accept at ha
  split at ha
  next o fd ho =>
    rw [objectOf?_some] at ho
    split at ha
    · cases ha
    · cases o with
      | listener bound backlog =>
        cases backlog with
        | nil => cases ha
        | cons number rest =>
          dsimp only at ha
          cases halloc : (h.setObject fd (.listener bound rest)).allocate (.stream number) with
          | error e =>
            rw [halloc] at ha
            cases ha
          | ok r =>
            rw [halloc] at ha
            cases ha
            exact ⟨fd, bound, number, rest, rfl, ho, halloc, rfl⟩
      | _ => cases ha
  next => cases ha

/-- What is there afterwards: the listener without that connection, and its end behind the new
descriptor. -/
theorem object?_accept {client number : Nat} {bound : Binding} {rest : List Nat}
    (ho : h.object? fd = some (.listener bound (number :: rest)))
    (halloc : (h.setObject fd (.listener bound rest)).allocate (.stream number)
      = .ok (client, h')) :
    h'.object? fd = some (.listener bound rest) ∧ h'.object? client = some (.stream number) := by
  obtain ⟨hfree, hobj⟩ := allocate_ok halloc
  have hfd : (h.setObject fd (.listener bound rest)).object? fd = some (.listener bound rest) := by
    rw [object?_setObject ho, if_pos rfl]
  -- the new descriptor is not the listener's, which is in use
  have hne : fd ≠ client := by
    rintro rfl
    rw [hfree] at hfd
    cases hfd
  exact ⟨by rw [hobj, if_neg hne, hfd], by rw [hobj, if_pos rfl]⟩

/-- **Accepting takes one connection away, and none arrives.** -/
theorem accept_ok {listener : Option Nat} {client : Nat × String}
    (ha : h.accept listener = .ok (client, h')) :
    Lull h h' ∧ h'.backlog listener + 1 = h.backlog listener := by
  obtain ⟨fd, bound, number, rest, rfl, ho, halloc, -⟩ := accept_eq_ok ha
  have hset : Lull h (h.setObject fd (.listener bound rest)) := .setObject ho (Nat.le_succ _)
  refine ⟨hset.trans (.allocate halloc rfl), ?_⟩
  rw [backlog_of_object? ho, backlog_of_object? (object?_accept ho halloc).1]
  rfl

end Host

/-! ### Flags -/

namespace Notifier

open Host (Lull)

theorem lull_signal (n : Notifier) (amount : Nat) (h : Host) : Lull h (n.signal amount h) := by
  unfold signal
  split
  · exact .refl h
  · split
    next c ho => exact .setObject ho (Nat.le_refl 0)
    next => exact .refl h

theorem lull_set (n : Notifier) (h : Host) : Lull h (n.set h) := n.lull_signal 1 h

theorem lull_clear (n : Notifier) (h : Host) : Lull h (n.clear h) := by
  unfold clear
  split
  · exact .refl h
  · split
    next c ho => exact .setObject ho (Nat.le_refl 0)
    next => exact .refl h

end Notifier

/-! ### Channels -/

variable {α : Type}

namespace Channel

open Host (Lull)

theorem lull_send {c c' : Channel α} {v : α} {h h' : Host} (hs : c.send v h = .ok (c', h')) :
    Lull h h' := by
  rw [host_send hs]
  split
  · exact c.bell.lull_set h
  · exact .refl h

theorem lull_release (c : Channel α) (h : Host) : Lull h (c.release h) := by
  unfold release
  split
  · exact .close? h _
  · exact .refl h

end Channel

namespace Channels

open Host (Lull)

theorem lull_send (t : Channels α) (id : Nat) (v : α) (h : Host) : Lull h (t.send id v h).2.2 := by
  unfold send
  split
  · exact .refl h
  · split
    next hs => exact Channel.lull_send hs
    next => exact .refl h

theorem lull_modify (t : Channels α) (id : Nat) (f : Channel α → Channel α) (h : Host) :
    Lull h (t.modify id f h).2 := by
  unfold modify
  split
  · unfold put
    split
    · exact Channel.lull_release _ h
    · exact .refl h
  · exact .refl h

end Channels

namespace Broadcast

open Host (Lull)

theorem lull_offer (v : α) (ids : List Nat) : ∀ (t : Channels α) (h : Host),
    Lull h (offer v t h ids).2.2.2 := by
  induction ids with
  | nil => exact fun _ h => .refl h
  | cons id rest ih =>
    intro t h
    have hsend := t.lull_send id v h
    unfold offer
    split
    next t' h' hs =>
      rw [hs] at hsend
      exact hsend.trans (ih t' h')
    next e t' h' hs =>
      rw [hs] at hsend
      dsimp only
      split <;> exact hsend.trans (ih t' h')

theorem lull_detachAll (ids : List Nat) : ∀ (t : Channels α) (h : Host),
    Lull h (ids.foldl (fun (t, h) id => t.modify id Channel.detach h) (t, h)).2 := by
  induction ids with
  | nil => exact fun _ h => .refl h
  | cons id rest ih =>
    intro t h
    rw [List.foldl_cons]
    exact (t.lull_modify id Channel.detach h).trans (ih _ _)

/-- Publishing a value makes no connection arrive. -/
theorem lull_publish (b : Broadcast) (v : α) (t : Channels α) (h : Host) :
    Lull h (b.publish v t h).2.2.2 := by
  have hoffer := lull_offer v b.subscribers t h
  rcases ho : offer v t h b.subscribers with ⟨refused, gone, t', h'⟩
  rw [ho] at hoffer
  unfold publish
  rw [ho]
  dsimp only
  cases gone with
  | false =>
    rw [if_neg Bool.false_ne_true]
    dsimp only
    split
    · exact hoffer
    · exact hoffer.trans (.note h' _)
  | true =>
    -- pruning detaches channels and touches no backlog
    have hprune : Lull h' (b.prune t' h').2.2 := lull_detachAll _ t' h'
    rw [if_pos rfl]
    split
    · exact hoffer.trans hprune
    · exact (hoffer.trans hprune).trans (.note _ _)

end Broadcast

/-! ### Registrations -/

namespace Evented

variable {ι : Type}

theorem disarm_fst (e : Evented ι) (token : Token) (l : Loop) :
    (e.disarm token l).1 = { e with armed := false } := by
  unfold disarm
  split <;> rfl

/-- Latching an event keeps the resource and its token, and makes no connection arrive. -/
theorem accept_spec (e : Evented ι) (event : Event) (l : Loop) :
    (e.accept event l).1 = e.owns event ∧ (e.accept event l).2.1.inner = e.inner ∧
      (e.accept event l).2.1.token = e.token ∧ l.host.Lull (e.accept event l).2.2.host := by
  have hlull := (e.rewatches_accept event l).lull
  have hkept : (e.accept event l).1 = e.owns event ∧ (e.accept event l).2.1.inner = e.inner ∧
      (e.accept event l).2.1.token = e.token := by
    unfold accept
    split
    next howns =>
      dsimp only
      split
      · rw [disarm_fst]
        exact ⟨howns.symm, rfl, rfl⟩
      · exact ⟨howns.symm, rfl, rfl⟩
    next howns => exact ⟨(Bool.eq_false_iff.mpr howns).symm, rfl, rfl⟩
  exact ⟨hkept.1, hkept.2.1, hkept.2.2, hlull⟩

section Listening

variable {e e' : Evented Listener} {event : Event} {l l' : Loop}

/-- A listener passes on an event of somebody else. -/
theorem listen_of_foreign (hr : e.accept event l = (false, e', l')) :
    e.listen (.event event) l = (.event event, e', l') := by
  unfold listen
  dsimp only
  rw [hr]

/-- After an event of its own it goes on as without input. -/
theorem listen_of_own (hr : e.accept event l = (true, e', l')) :
    e.listen (.event event) l = e'.listen .idle l' := by
  unfold listen
  dsimp only
  rw [hr]

end Listening

end Evented

end EventLoop

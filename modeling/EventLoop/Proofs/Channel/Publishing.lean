import EventLoop.Channel.Broadcast
import EventLoop.Proofs.Channel.Basic

/-!
# What publishing does to the channels

A value is offered to every subscriber in turn, and the subscribers that turned out to
be gone are let go of afterwards.  Both passes go over a table that all subscribers
share.  What becomes of the channel of one subscriber depends on that channel alone.

## Main definitions

* `Channel.refuses` — the receiver is there, and the channel takes no value.
* `Channel.offered v` — a channel after a value was offered to it.
* `Channels.Fades t t'` — channels without a receiver may be gone, and senders may be.
* `Broadcast.refusers t` — the subscribers who would refuse a value, in order.

## Main results

* `Channels.get?_put`, `Channels.get?_add`, … — look-ups in a changed table.
* `Broadcast.offer_spec` — **an offer reaches every channel by itself.**
* `Broadcast.publish_spec` — what a publication answers, and what it leaves.
-/

namespace EventLoop

variable {α : Type}

/-! ### Channel numbers -/

namespace Host

theorem channels_hangUp (h : Host) (number : Nat) (unaccepted : Bool) :
    (h.hangUp number unaccepted).channels = h.channels := by
  unfold hangUp
  split <;> rfl

theorem channels_discard (h : Host) (fd : Nat) (o : Object) :
    (h.discard fd o).channels = h.channels := by
  cases o with
  | stream number => exact channels_hangUp h number false
  | listener bound backlog =>
    have hall : ∀ h : Host,
        (backlog.foldl (fun h number => h.hangUp number true) h).channels = h.channels := by
      induction backlog with
      | nil => exact fun h => rfl
      | cons number rest ih =>
        intro h
        rw [List.foldl_cons, ih, channels_hangUp]
    exact hall (h.releaseNames fd)
  | _ => rfl

theorem channels_close (h : Host) (fd : Nat) : (h.close fd).channels = h.channels := by
  unfold close
  split
  · rfl
  · exact channels_discard (h.unwatch fd) fd _

end Host

namespace Notifier

theorem channels_signal (n : Notifier) (amount : Nat) (h : Host) :
    (n.signal amount h).channels = h.channels := by
  unfold signal
  split
  · rfl
  · split <;> rfl

theorem channels_clear (n : Notifier) (h : Host) : (n.clear h).channels = h.channels := by
  unfold clear
  split
  · rfl
  · split <;> rfl

theorem channels_create (h : Host) : (create h).2.channels = h.channels := by
  unfold create Host.allocate
  by_cases hallow : h.allows 1 = true
  · rw [if_pos hallow]
  · rw [if_neg hallow]

theorem channels_close (n : Notifier) (h : Host) : (n.close h).channels = h.channels := by
  unfold close Host.close?
  split
  · exact Host.channels_close h _
  · rfl

end Notifier

namespace Channel

variable {c c' : Channel α} {v : α} {h h' : Host}

theorem channels_send (hs : c.send v h = .ok (c', h')) : h'.channels = h.channels := by
  rw [host_send hs]
  split
  · exact c.bell.channels_signal 1 h
  · rfl

theorem channels_receive (hr : c.receive h = .ok (v, c', h')) : h'.channels = h.channels := by
  obtain ⟨rest, -, -, rfl⟩ := receive_ok hr
  split
  · exact c.bell.channels_clear h
  · rfl

theorem channels_resume (c : Channel α) (h : Host) :
    (c.resume h).2.2.channels = h.channels := by
  unfold resume
  dsimp only
  split
  next hr => exact channels_receive hr
  next => rfl

theorem channels_release (c : Channel α) (h : Host) : (c.release h).channels = h.channels := by
  unfold release
  split
  · exact c.bell.channels_close h
  · rfl

/-! ### One channel -/

/-- The receiver is there, and the channel takes no value for now. -/
def refuses (c : Channel α) : Bool := c.hasReceiver && c.isFull

/-- The channel after a value was offered to it. -/
def offered (v : α) (c : Channel α) : Channel α :=
  if c.hasReceiver && !c.isFull then { c with queue := c.queue ++ [v] } else c

@[simp] theorem hasReceiver_offered (v : α) (c : Channel α) :
    (c.offered v).hasReceiver = c.hasReceiver := by
  unfold offered
  split <;> rfl

theorem offered_of_send_ok (hs : c.send v h = .ok (c', h')) :
    c.refuses = false ∧ c.hasReceiver = true ∧ c' = c.offered v := by
  obtain ⟨hlive, hfull, rfl⟩ := send_ok hs
  simp [refuses, offered, hlive, hfull]

theorem offered_of_send_error {e : Failure} (hs : c.send v h = .error e) :
    c.offered v = c ∧ (e = .receiverGone ∧ c.refuses = false ∧ c.hasReceiver = false ∨
      e = .signalFull ∧ c.refuses = true ∧ c.hasReceiver = true) := by
  obtain ⟨hdead, rfl⟩ | ⟨hlive, hfull, rfl⟩ := send_error hs
  · simp [refuses, offered, hdead]
  · simp [refuses, offered, hlive, hfull]

end Channel

/-! ### Tables -/

namespace Channels

variable {t t' : Channels α} {id j : Nat} {c : Channel α}

theorem get?_set_of_ne (t : Channels α) (c : Channel α) (hne : j ≠ id) :
    (t.set id c).get? j = t.get? j := by
  unfold get? set
  dsimp only
  induction t.entries with
  | nil => rfl
  | cons entry rest ih =>
    obtain ⟨k, d⟩ := entry
    by_cases hk : k = id
    · have hjk : (j == k) = false := beq_false_of_ne (hk ▸ hne)
      simpa only [List.map_cons, if_pos hk, List.lookup_cons, hjk] using ih
    · simp only [List.map_cons, if_neg hk, List.lookup_cons]
      cases j == k with
      | true => rfl
      | false => exact ih

theorem get?_erase (t : Channels α) (id j : Nat) :
    (t.erase id).get? j = if j = id then none else t.get? j := by
  unfold get? erase
  dsimp only
  induction t.entries with
  | nil => simp
  | cons entry rest ih =>
    obtain ⟨k, d⟩ := entry
    by_cases hk : k = id
    · -- the entry goes, and it is not the one that is looked up
      have hdrop : (k != id) = false := by simp [hk]
      rw [List.filter_cons, hdrop, if_neg Bool.false_ne_true, ih, List.lookup_cons]
      by_cases hj : j = id
      · rw [if_pos hj, if_pos hj]
      · have hjk : (j == k) = false := beq_false_of_ne (hk ▸ hj)
        rw [if_neg hj, if_neg hj, hjk]
    · have hkeep : (k != id) = true := by simp [hk]
      rw [List.filter_cons, hkeep, if_pos rfl, List.lookup_cons, List.lookup_cons]
      cases hjk : j == k with
      | true =>
        have hj : j ≠ id := (eq_of_beq hjk) ▸ hk
        rw [if_neg hj]
      | false => exact ih

theorem get?_add (hfresh : t.get? c.id = none) (j : Nat) :
    (t.add c).get? j = if j = c.id then some c else t.get? j := by
  unfold get? add at *
  dsimp only at *
  generalize t.entries = entries at hfresh ⊢
  induction entries with
  | nil =>
    by_cases hj : j = c.id
    · simp [hj]
    · have hne : (j == c.id) = false := beq_false_of_ne hj
      simp [List.lookup_cons, hne, hj]
  | cons entry rest ih =>
    obtain ⟨k, d⟩ := entry
    rw [List.lookup_cons] at hfresh
    cases hck : c.id == k with
    | true => rw [hck] at hfresh; cases hfresh
    | false =>
      rw [hck] at hfresh
      rw [List.cons_append, List.lookup_cons, List.lookup_cons, ih hfresh]
      cases hjk : j == k with
      | true =>
        have hj : j ≠ c.id := by
          rintro rfl
          cases hck.symm.trans hjk
        exact (if_neg hj).symm
      | false => rfl

theorem get?_put (hd : (t.get? id).isSome = true) (c : Channel α) (h : Host) (j : Nat) :
    (t.put id c h).1.get? j
      = if j = id then (if c.isOrphan then none else some c) else t.get? j := by
  obtain ⟨d, hd⟩ := Option.isSome_iff_exists.mp hd
  unfold put
  by_cases hc : c.isOrphan = true
  · rw [if_pos hc, if_pos hc]
    exact t.get?_erase id j
  · rw [if_neg hc, if_neg hc]
    by_cases hj : j = id
    · rw [hj, if_pos rfl, get?_set, hd]
      rfl
    · rw [if_neg hj]
      exact t.get?_set_of_ne c hj

theorem get?_modify (t : Channels α) (id : Nat) (f : Channel α → Channel α) (h : Host) (j : Nat) :
    (t.modify id f h).1.get? j = if j = id then
      (t.get? id).bind fun c => if (f c).isOrphan then none else some (f c) else t.get? j := by
  unfold modify
  cases hc : t.get? id with
  | none =>
    by_cases hj : j = id
    · rw [hj, if_pos rfl]
      exact hc
    · rw [if_neg hj]
  | some c => exact get?_put (by rw [hc]; rfl) (f c) h j

theorem channels_modify (t : Channels α) (id : Nat) (f : Channel α → Channel α) (h : Host) :
    (t.modify id f h).2.channels = h.channels := by
  unfold modify put
  split
  · split
    · exact Channel.channels_release _ h
    · rfl
  · rfl

theorem get?_send (t : Channels α) (id : Nat) (v : α) (h : Host) (j : Nat) :
    (t.send id v h).2.1.get? j
      = if j = id then (t.get? id).map (Channel.offered v) else t.get? j := by
  unfold send
  cases hc : t.get? id with
  | none =>
    by_cases hj : j = id
    · rw [hj, if_pos rfl]
      exact hc
    · rw [if_neg hj]
  | some c =>
    dsimp only
    split
    next c' h' hs =>
      obtain ⟨-, -, rfl⟩ := Channel.offered_of_send_ok hs
      by_cases hj : j = id
      · rw [hj, if_pos rfl, get?_set, hc]
        rfl
      · rw [if_neg hj]
        exact t.get?_set_of_ne _ hj
    next e hs =>
      have hsame := (Channel.offered_of_send_error hs).1
      by_cases hj : j = id
      · rw [hj, if_pos rfl, hc, Option.map_some, hsame]
      · rw [if_neg hj]

theorem channels_send (t : Channels α) (id : Nat) (v : α) (h : Host) :
    (t.send id v h).2.2.channels = h.channels := by
  unfold send
  split
  · rfl
  · split
    next hs => exact Channel.channels_send hs
    next => rfl

theorem channels_receive (t : Channels α) (id : Nat) (h : Host) :
    (t.receive id h).2.2.channels = h.channels := by
  unfold receive
  split
  · rfl
  · split
    next hr => exact Channel.channels_receive hr
    next => rfl

/-- A receive takes from the channel it names, and touches no other. -/
theorem receive_spec (hc : t.get? id = some c) (h : Host) :
    ∃ c', c.Takes (t.receive id h).1 c' ∧
      ∀ j, (t.receive id h).2.1.get? j = if j = id then some c' else t.get? j := by
  unfold receive
  rw [hc]
  dsimp only
  -- only the channel asked changes, and only if it had a value
  split
  next v c' h' hr =>
    refine ⟨c', Channel.takes_of_receive_ok hr, fun j => ?_⟩
    by_cases hj : j = id
    · rw [if_pos hj, hj, get?_set, hc]
      rfl
    · rw [if_neg hj]
      exact t.get?_set_of_ne c' hj
  next e hr =>
    refine ⟨c, Channel.takes_of_receive_error hr, fun j => ?_⟩
    by_cases hj : j = id
    · rw [if_pos hj, hj]
      exact hc
    · rw [if_neg hj]

/-- Channels without a receiver may be gone, and any channel may have lost senders.  Nothing
else differs. -/
def Fades (t t' : Channels α) : Prop :=
  ∀ j, (t'.get? j = none ∧ Broadcast.isLive t j = false) ∨
    ∃ c n, t.get? j = some c ∧ t'.get? j = some { c with senders := n }

namespace Fades

theorem refl (t : Channels α) : t.Fades t := by
  intro j
  cases hj : t.get? j with
  | none => exact .inl ⟨rfl, by simp [Broadcast.isLive, hj]⟩
  | some c => exact .inr ⟨c, c.senders, rfl, rfl⟩

theorem isLive_eq (hf : t.Fades t') (j : Nat) :
    Broadcast.isLive t' j = Broadcast.isLive t j := by
  obtain ⟨hnone, hdead⟩ | ⟨c, n, hc, hc'⟩ := hf j
  · rw [hdead, Broadcast.isLive, hnone]
    rfl
  · rw [Broadcast.isLive, Broadcast.isLive, hc, hc']
    rfl

theorem trans {t'' : Channels α} (hf : t.Fades t') (hf' : t'.Fades t'') : t.Fades t'' := by
  intro j
  obtain ⟨hnone, hdead⟩ | ⟨c, n, hc, hc'⟩ := hf' j
  · exact .inl ⟨hnone, (hf.isLive_eq j).symm.trans hdead⟩
  · obtain ⟨hnone, -⟩ | ⟨d, m, hd, hd'⟩ := hf j
    · cases hnone.symm.trans hc
    · cases hd'.symm.trans hc
      exact .inr ⟨d, n, hd, hc'⟩

end Fades

/-- A sender goes, and the channel with it if there is no receiver either. -/
theorem fades_detach (t : Channels α) (id : Nat) (h : Host) :
    t.Fades (t.modify id Channel.detach h).1 := by
  intro j
  rw [get?_modify]
  by_cases hj : j = id
  · subst hj
    rw [if_pos rfl]
    cases hc : t.get? j with
    | none => exact .inl ⟨rfl, by simp [Broadcast.isLive, hc]⟩
    | some c =>
      by_cases horphan : c.detach.isOrphan = true
      · have hdead : c.hasReceiver = false := by
          simp only [Channel.isOrphan, Channel.detach, Bool.and_eq_true,
            Bool.not_eq_true'] at horphan
          exact horphan.1
        exact .inl ⟨by simp [horphan], by simp [Broadcast.isLive, hc, hdead]⟩
      · exact .inr ⟨c, c.senders - 1, rfl, by rw [Option.bind_some, if_neg horphan]; rfl⟩
  · rw [if_neg hj]
    exact Fades.refl t j

/-- So do the senders of many channels. -/
theorem fades_detachAll (ids : List Nat) (t : Channels α) (h : Host) :
    t.Fades (ids.foldl (fun (t, h) id => t.modify id Channel.detach h) (t, h)).1 ∧
      (ids.foldl (fun (t, h) id => t.modify id Channel.detach h) (t, h)).2.channels
        = h.channels := by
  induction ids generalizing t h with
  | nil => exact ⟨.refl t, rfl⟩
  | cons id rest ih =>
    have hfirst := t.fades_detach id h
    have hnumber := t.channels_modify id Channel.detach h
    rw [List.foldl_cons]
    obtain ⟨hfades, hsame⟩ := ih (t.modify id Channel.detach h).1 (t.modify id Channel.detach h).2
    exact ⟨hfirst.trans hfades, hsame.trans hnumber⟩

end Channels

/-! ### Broadcasts -/

namespace Broadcast

variable {t : Channels α} {ids : List Nat}

/-- The subscribers, of some, who would refuse a value. -/
def refusers (t : Channels α) (ids : List Nat) : List Nat :=
  ids.filter fun id => (t.get? id).elim false Channel.refuses

theorem isLive_iff {id : Nat} :
    isLive t id = true ↔ ∃ c, t.get? id = some c ∧ c.hasReceiver = true := by
  unfold isLive
  cases t.get? id with
  | none => simp
  | some c => simp

theorem isLive_congr {t' : Channels α} {id : Nat} (ht : t'.get? id = t.get? id) :
    isLive t' id = isLive t id := by
  unfold isLive
  rw [ht]

/-- What one offer answers. -/
theorem send_cases (t : Channels α) (id : Nat) (v : α) (h : Host) :
    ((t.send id v h).1 = .ok () ∧ (t.get? id).elim false Channel.refuses = false ∧
      isLive t id = true) ∨
    ((t.send id v h).1 = .error .receiverGone ∧
      (t.get? id).elim false Channel.refuses = false ∧ isLive t id = false) ∨
    ((t.send id v h).1 = .error .signalFull ∧ (t.get? id).elim false Channel.refuses = true ∧
      isLive t id = true) := by
  unfold Channels.send isLive
  cases hc : t.get? id with
  | none => simp
  -- refusing is for live receivers: a channel without one is not full but gone
  | some c =>
    dsimp only [Option.elim_some]
    split
    next c' h' hs =>
      obtain ⟨hrefuses, hlive, -⟩ := Channel.offered_of_send_ok hs
      exact .inl ⟨rfl, hrefuses, hlive⟩
    next e hs =>
      obtain ⟨-, ⟨rfl, hrefuses, hdead⟩ | ⟨rfl, hrefuses, hlive⟩⟩ :=
        Channel.offered_of_send_error hs
      · exact .inr (.inl ⟨rfl, hrefuses, hdead⟩)
      · exact .inr (.inr ⟨rfl, hrefuses, hlive⟩)

/-- **An offer reaches every channel by itself**: it is refused by those who would refuse it,
it notices whether somebody is gone, and every other channel has the value. -/
theorem offer_spec (v : α) (hids : ids.Nodup) (t : Channels α) (h : Host) :
    (offer v t h ids).1 = refusers t ids ∧
    (offer v t h ids).2.1 = ids.any (fun id => !isLive t id) ∧
    (∀ j, (offer v t h ids).2.2.1.get? j
      = if j ∈ ids then (t.get? j).map (Channel.offered v) else t.get? j) ∧
    (offer v t h ids).2.2.2.channels = h.channels := by
  induction ids generalizing t h with
  | nil => exact ⟨rfl, rfl, fun j => by simp [offer], rfl⟩
  | cons id rest ih =>
    obtain ⟨hnotin, hrest⟩ := List.nodup_cons.mp hids
    have hget := t.get?_send id v h
    have hnumber := t.channels_send id v h
    have hcases := send_cases t id v h
    rw [offer]
    rcases hsend : t.send id v h with ⟨r, t₁, h₁⟩
    rw [hsend] at hget hnumber hcases
    obtain ⟨hrefused, hgone, hall, hsame⟩ := ih hrest t₁ h₁
    -- the first offer leaves the channels of the others as they are
    have hothers : ∀ j ∈ rest, t₁.get? j = t.get? j := by
      intro j hj
      rw [hget, if_neg]
      rintro rfl
      exact hnotin hj
    have hrefusers : refusers t₁ rest = refusers t rest :=
      List.filter_congr fun j hj => by rw [hothers j hj]
    have hany : rest.any (fun id => !isLive t₁ id) = rest.any (fun id => !isLive t id) := by
      rw [Bool.eq_iff_iff, List.any_eq_true, List.any_eq_true]
      constructor
      · rintro ⟨j, hj, hd⟩
        exact ⟨j, hj, by rwa [isLive_congr (hothers j hj)] at hd⟩
      · rintro ⟨j, hj, hd⟩
        exact ⟨j, hj, by rwa [isLive_congr (hothers j hj)]⟩
    have hfinal : ∀ j, (offer v t₁ h₁ rest).2.2.1.get? j
        = if j ∈ id :: rest then (t.get? j).map (Channel.offered v) else t.get? j := by
      intro j
      rw [hall]
      by_cases hj : j ∈ rest
      · rw [if_pos hj, if_pos (List.mem_cons_of_mem _ hj), hothers j hj]
      · rw [if_neg hj, hget]
        by_cases hid : j = id
        · subst hid
          rw [if_pos rfl, if_pos List.mem_cons_self]
        · rw [if_neg hid, if_neg (by simp [hid, hj])]
    rw [hrefusers] at hrefused
    rw [hany] at hgone
    obtain ⟨rfl, hr, hl⟩ | ⟨rfl, hr, hl⟩ | ⟨rfl, hr, hl⟩ := hcases
    · exact ⟨by simp [refusers, hr, hrefused], by simp [hl, hgone], hfinal, hsame.trans hnumber⟩
    · refine ⟨?_, ?_, ?_, hsame.trans hnumber⟩
      · simp [refusers, hr, hrefused]
      · simp [hl]
      · simpa using hfinal
    · refine ⟨?_, ?_, ?_, hsame.trans hnumber⟩
      · simp [refusers, hr, hrefused]
      · simp [hl, hgone]
      · simpa using hfinal

/-- **What a publication answers, and what it leaves.**  It fails exactly if somebody refuses
the value, and names those who do.  The subscribers who are there stay, and everybody who did
not refuse has the value. -/
theorem publish_spec (b : Broadcast) (hids : b.subscribers.Nodup) (v : α) (t : Channels α)
    (h : Host) :
    (b.publish v t h).1 = (if (refusers t b.subscribers).isEmpty then .ok ()
      else .error (.subscribersFull (refusers t b.subscribers))) ∧
    (b.publish v t h).2.1 = { b with subscribers := b.subscribers.filter (isLive t) } ∧
    (∃ t₁ : Channels α, (∀ j, t₁.get? j
        = if j ∈ b.subscribers then (t.get? j).map (Channel.offered v) else t.get? j) ∧
      t₁.Fades (b.publish v t h).2.2.1) ∧
    (b.publish v t h).2.2.2.channels = h.channels := by
  obtain ⟨hrefused, hgone, hall, hsame⟩ := offer_spec v hids t h
  unfold publish
  rcases hoffer : offer v t h b.subscribers with ⟨refused, gone, t₁, h₁⟩
  rw [hoffer] at hrefused hgone hall hsame
  dsimp only at hrefused hgone hall hsame ⊢
  subst hrefused hgone
  -- the offer has changed nobody's being there
  have hlive : isLive t₁ = isLive t := by
    funext j
    unfold isLive
    rw [hall]
    by_cases hj : j ∈ b.subscribers
    · rw [if_pos hj]
      cases t.get? j <;> simp
    · rw [if_neg hj]
  by_cases hsome : b.subscribers.any (fun id => !isLive t id) = true
  · obtain ⟨hfades, hnumber⟩ :=
      Channels.fades_detachAll (b.subscribers.filter fun id => !isLive t₁ id) t₁ h₁
    have hkeep : b.subscribers.filter
        (fun id => !(b.subscribers.filter fun id => !isLive t₁ id).contains id)
          = b.subscribers.filter (isLive t) := by
      refine List.filter_congr fun j hj => ?_
      rw [hlive]
      cases hj' : isLive t j <;> simp [hj, hj']
    simp only [if_pos hsome, prune, hkeep]
    split
    · exact ⟨rfl, rfl, ⟨t₁, hall, hfades⟩, hnumber.trans hsame⟩
    · exact ⟨rfl, rfl, ⟨t₁, hall, hfades⟩, hnumber.trans hsame⟩
  · have hkeep : b.subscribers.filter (isLive t) = b.subscribers := by
      rw [List.filter_eq_self]
      intro j hj
      by_contra hdead
      exact hsome (List.any_eq_true.mpr ⟨j, hj, by simpa using hdead⟩)
    simp only [if_neg hsome, hkeep]
    split
    · exact ⟨rfl, rfl, ⟨t₁, hall, .refl t₁⟩, hsame⟩
    · exact ⟨rfl, rfl, ⟨t₁, hall, .refl t₁⟩, hsame⟩

end Broadcast
end EventLoop

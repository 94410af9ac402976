import EventLoop.Proofs.Channel.Publishing
import EventLoop.Proofs.Evented.Rack
import EventLoop.Proofs.Host.Backlog

/-!
# What an operation stays away from

A flag, a listener, a registration or a subscriber has a descriptor, and what is done
with it concerns this descriptor alone: every other one that is open refers to the
same, is as ready as before, and is watched as before.  A broadcast concerns the
descriptors of its subscribers, which must be its own for that.

## Main definitions

* `Host.Confined D h h'` — of what is open only the descriptors in `D` are concerned.
* `Loop.Confined D T l l'` — the same with registrations: only the tokens in `T` are concerned.
* `Channels.Belled` — the bells of a table are counters, and no two channels share one.
* `Channels.Carries` — what happens to a table of channels concerns its own bells.

## Main results

* `Host.Confined.readiness_eq` — what is not concerned is as ready as before.
* `Notifier.confined_clear`, `Host.confined_accept`, `Loop.confined_reregister` — the operations.
* `Broadcast.carries_publish` — **publishing concerns the bells of the subscribers.**
-/

namespace EventLoop

/-- What an object watches, if it is a multiplexer. -/
def Object.watches : Object → List Watch
  | .multiplexer watches => watches
  | _ => []

/-- Other descriptors are watched as before. -/
theorem Control.filter_of_apply_modify {watches watches' : List Watch} {fd j : Nat} {token : Token}
    {mask : Mask} (h : apply watches fd (.modify token mask) = .ok watches') (hne : j ≠ fd) :
    watches'.filter (·.descriptor == j) = watches.filter (·.descriptor == j) := by
  -- only the watch of the one descriptor is replaced
  have hmap : ∀ ws : List Watch, (ws.map fun w => if w.descriptor = fd then ⟨fd, token, mask⟩
      else w).filter (·.descriptor == j) = ws.filter (·.descriptor == j) := by
    intro ws
    induction ws with
    | nil => rfl
    | cons w rest ih =>
      by_cases hw : w.descriptor = fd
      · simp [hw, hne.symm, ih]
      · simp [hw, List.filter_cons, ih]
  simp only [apply] at h
  split at h
  · cases h
    exact hmap watches
  · cases h

namespace Host

variable {D D' : Nat → Prop} {h h' h'' : Host} {fd : Nat} {o o' : Object}

/-- How a multiplexer watches a descriptor. -/
def watchesOf (h : Host) (p : Option Nat) (fd : Nat) : List Watch :=
  (h.watches p).filter (·.descriptor == fd)

theorem watches_eq_elim (h : Host) (p : Option Nat) :
    h.watches p = (h.objectOf? p).elim [] Object.watches := by
  unfold Host.watches
  cases h.objectOf? p with
  | none => rfl
  | some o => cases o <;> rfl

/-- The readiness of an object depends on the ends of streams at most. -/
theorem mask_congr (hends : h'.ends = h.ends) (o : Object) : h'.mask o = h.mask o := by
  cases o <;> simp [mask, endMask, end?, hends]

/-- Of what is open, only what is behind descriptors in `D` has changed, and what multiplexers
watch those for. -/
structure Confined (D : Nat → Prop) (h h' : Host) : Prop where
  /-- The ends of streams are the same. -/
  ends_eq : h'.ends = h.ends
  /-- A descriptor refers to the same, or to a multiplexer as before. -/
  object? : ∀ fd o, ¬D fd → h.object? fd = some o → h'.object? fd = some o ∨
    ∃ watches watches', o = .multiplexer watches ∧ h'.object? fd = some (.multiplexer watches')
  /-- It is watched as before. -/
  watchesOf_eq : ∀ p fd, ¬D fd → h'.watchesOf p fd = h.watchesOf p fd

namespace Confined

theorem refl (D : Nat → Prop) (h : Host) : Confined D h h :=
  ⟨rfl, fun _ _ _ ho => .inl ho, fun _ _ _ => rfl⟩

theorem note (D : Nat → Prop) (h : Host) (n : Notice) : Confined D h (h.note n) :=
  ⟨rfl, fun _ _ _ ho => .inl ho, fun _ _ _ => rfl⟩

theorem calm (D : Nat → Prop) (h : Host) : Confined D h h.calm :=
  ⟨rfl, fun _ _ _ ho => .inl ho, fun _ _ _ => rfl⟩

theorem trans (h₁ : Confined D h h') (h₂ : Confined D h' h'') : Confined D h h'' where
  ends_eq := h₂.ends_eq.trans h₁.ends_eq
  object? fd o hfd ho := by
    rcases h₁.object? fd o hfd ho with ho' | ⟨watches, watches', rfl, ho'⟩
    · exact h₂.object? fd o hfd ho'
    · rcases h₂.object? fd _ hfd ho' with ho'' | ⟨-, watches'', -, ho''⟩
      · exact .inr ⟨watches, watches', rfl, ho''⟩
      · exact .inr ⟨watches, watches'', rfl, ho''⟩
  watchesOf_eq p fd hfd := (h₂.watchesOf_eq p fd hfd).trans (h₁.watchesOf_eq p fd hfd)

theorem mono (hD : ∀ fd, D fd → D' fd) (hc : Confined D h h') : Confined D' h h' where
  ends_eq := hc.ends_eq
  object? fd o hfd ho := hc.object? fd o (fun hd => hfd (hD fd hd)) ho
  watchesOf_eq p fd hfd := hc.watchesOf_eq p fd fun hd => hfd (hD fd hd)

/-- What is open stays open. -/
theorem isSome_object? (hc : Confined D h h') (hfd : ¬D fd)
    (ho : (h.object? fd).isSome = true) : (h'.object? fd).isSome = true := by
  obtain ⟨o, ho⟩ := Option.isSome_iff_exists.mp ho
  rcases hc.object? fd o hfd ho with ho' | ⟨-, watches', -, ho'⟩ <;> rw [ho'] <;> rfl

/-- What is no multiplexer stays what it is. -/
theorem object?_eq (hc : Confined D h h') (hfd : ¬D fd) (ho : h.object? fd = some o)
    (hne : ∀ watches, o ≠ .multiplexer watches) : h'.object? fd = some o := by
  rcases hc.object? fd o hfd ho with ho' | ⟨watches, -, rfl, -⟩
  · exact ho'
  · exact absurd rfl (hne watches)

/-- **What is not concerned is as ready as before.** -/
theorem readiness_eq (hc : Confined D h h') (hfd : ¬D fd)
    (ho : (h.object? fd).isSome = true) : h'.readiness (some fd) = h.readiness (some fd) := by
  obtain ⟨o, ho⟩ := Option.isSome_iff_exists.mp ho
  unfold readiness
  rcases hc.object? fd o hfd ho with ho' | ⟨watches, watches', rfl, ho'⟩
  · simp [ho, ho', mask_congr hc.ends_eq]
  · -- a multiplexer is never ready
    simp [ho, ho', mask]

/-- One object is replaced by another that watches the same. -/
theorem setObject (ho : h.object? fd = some o) (hD : D fd) (hw : o'.watches = o.watches) :
    Confined D h (h.setObject fd o') where
  ends_eq := rfl
  object? j oj hj hoj := by
    have hne : j ≠ fd := fun heq => hj (heq ▸ hD)
    rw [object?_setObject ho, if_neg hne]
    exact .inl hoj
  watchesOf_eq p j _ := by
    have heq : (h.setObject fd o').watches p = h.watches p := by
      rw [watches_eq_elim, watches_eq_elim]
      cases p with
      | none => rfl
      | some q =>
        rw [objectOf?_some, objectOf?_some, object?_setObject ho]
        by_cases hq : q = fd
        · rw [if_pos hq, hq, ho, Option.elim_some, Option.elim_some, hw]
        · rw [if_neg hq]
    rw [watchesOf, watchesOf, heq]

/-- A descriptor is opened for what watches nothing. -/
theorem allocate (ha : h.allocate o = .ok (fd, h')) (hw : o.watches = []) : Confined D h h' := by
  obtain ⟨hfree, hobj⟩ := allocate_ok ha
  refine ⟨?_, fun j oj _ hoj => ?_, fun p j _ => ?_⟩
  · unfold Host.allocate at ha
    split at ha
    · cases ha
      rfl
    · cases ha
  -- the descriptor allocated was free
  · have hne : j ≠ fd := by
      rintro rfl
      rw [hfree] at hoj
      cases hoj
    rw [hobj, if_neg hne]
    exact .inl hoj
  · have heq : h'.watches p = h.watches p := by
      rw [watches_eq_elim, watches_eq_elim]
      cases p with
      | none => rfl
      | some q =>
        rw [objectOf?_some, objectOf?_some, hobj]
        by_cases hq : q = fd
        · rw [if_pos hq, hq, hfree, Option.elim_some, hw, Option.elim_none]
        · rw [if_neg hq]
    rw [watchesOf, watchesOf, heq]

/-- A multiplexer is asked to watch a descriptor differently. -/
theorem modify {p f : Option Nat} {token : Token} {mask : Mask}
    (hc : h.control p f (.modify token mask) = .ok h') (hD : ∀ fd, f = some fd → D fd) :
    Confined D h h' := by
  obtain ⟨q, fd, watches, watches', rfl, rfl, -, ho, -, happ, rfl⟩ := control_ok hc
  refine ⟨rfl, fun j oj _ hoj => ?_, fun r j hj => ?_⟩
  · rw [object?_setObject ho]
    by_cases hq : j = q
    · rw [hq, ho] at hoj
      rw [if_pos hq]
      exact .inr ⟨watches, watches', (Option.some.inj hoj).symm, rfl⟩
    · rw [if_neg hq]
      exact .inl hoj
  -- the one watch that is replaced is of a permitted descriptor
  · have hne : j ≠ fd := fun heq => hj (heq ▸ hD fd rfl)
    rw [watchesOf, watchesOf, watches_eq_elim, watches_eq_elim]
    cases r with
    | none => rfl
    | some r =>
      rw [objectOf?_some, objectOf?_some, object?_setObject ho]
      by_cases hr : r = q
      · rw [if_pos hr, hr, ho]
        exact Control.filter_of_apply_modify happ hne
      · rw [if_neg hr]

/-- A flag is closed. -/
theorem close {c : Counter} (ho : h.object? fd = some (.counter c)) (hD : D fd) :
    Confined D h (h.close fd) := by
  refine ⟨?_, fun j oj hj hoj => ?_, fun p j hj => ?_⟩
  · unfold Host.close
    rw [ho]
    rfl
  · have hne : j ≠ fd := fun heq => hj (heq ▸ hD)
    rw [object?_close ho, if_neg hne, hoj]
    cases oj with
    | multiplexer watches => exact .inr ⟨watches, _, rfl, rfl⟩
    | _ => exact .inl rfl
  · have hne : j ≠ fd := fun heq => hj (heq ▸ hD)
    rw [watchesOf, watchesOf, watches_eq_elim, watches_eq_elim]
    cases p with
    | none => rfl
    | some q =>
      rw [objectOf?_some, objectOf?_some, object?_close ho]
      by_cases hq : q = fd
      · rw [if_pos hq, hq, ho]
        rfl
      · rw [if_neg hq]
        cases h.object? q with
        | none => rfl
        | some oq =>
          cases oq with
          | multiplexer watches =>
            show (watches.filter _).filter _ = watches.filter _
            rw [List.filter_filter]
            refine List.filter_congr fun w _ => ?_
            by_cases hw : w.descriptor = j <;> simp [hw, hne]
          | _ => rfl

end Confined

/-- Accepting concerns the listener. -/
theorem confined_accept {listener : Option Nat} {client : Nat × String}
    (ha : h.accept listener = .ok (client, h')) (hD : ∀ fd, listener = some fd → D fd) :
    Confined D h h' := by
  obtain ⟨fd, bound, number, rest, rfl, ho, halloc, -⟩ := accept_eq_ok ha
  have htaken : Confined D h (h.setObject fd (.listener bound rest)) :=
    .setObject ho (hD fd rfl) rfl
  exact htaken.trans (.allocate halloc rfl)

end Host

/-! ### Flags -/

/-- There is a counter behind the descriptor. -/
def Host.Counts (h : Host) (fd : Nat) : Prop := ∃ c, h.object? fd = some (.counter c)

theorem Host.Confined.counts {D : Nat → Prop} {h h' : Host} {fd : Nat} (hc : h.Confined D h')
    (hfd : ¬D fd) (hcounts : h.Counts fd) : h'.Counts fd := by
  obtain ⟨c, ho⟩ := hcounts
  exact ⟨c, hc.object?_eq hfd ho (fun _ heq => nomatch heq)⟩

namespace Notifier

open Host (Confined Counts)

variable {D : Nat → Prop} {n : Notifier}

/-- A flag is set or cleared by a change of the counter behind it. -/
theorem confined_of_counter {h : Host} {fd : Nat} {c c' : Counter} (hD : D fd)
    (ho : h.object? fd = some (.counter c)) :
    Confined D h (h.setObject fd (.counter c')) ∧
      ∀ j, h.Counts j → (h.setObject fd (.counter c')).Counts j := by
  refine ⟨.setObject ho hD rfl, fun j ⟨cj, hj⟩ => ?_⟩
  unfold Host.Counts
  rw [Host.object?_setObject ho]
  by_cases hjfd : j = fd
  · rw [if_pos hjfd]
    exact ⟨c', rfl⟩
  · rw [if_neg hjfd]
    exact ⟨cj, hj⟩

theorem confined_set (hD : ∀ fd, n.descriptor = some fd → D fd) (h : Host) :
    Confined D h (n.set h) ∧ ∀ j, h.Counts j → (n.set h).Counts j := by
  unfold set signal
  cases hd : n.descriptor with
  | none => exact ⟨.refl D h, fun _ => id⟩
  | some fd =>
    dsimp only
    split
    next c ho => exact confined_of_counter (hD fd hd) ho
    next => exact ⟨.refl D h, fun _ => id⟩

theorem confined_clear (hD : ∀ fd, n.descriptor = some fd → D fd) (h : Host) :
    Confined D h (n.clear h) := by
  unfold clear
  cases hd : n.descriptor with
  | none => exact .refl D h
  | some fd =>
    dsimp only
    split
    next c ho => exact (confined_of_counter (hD fd hd) ho).1
    next => exact .refl D h

/-- No descriptor is closed. -/
theorem isSome_object?_clear (n : Notifier) {h : Host} {fd : Nat}
    (ho : (h.object? fd).isSome = true) : ((n.clear h).object? fd).isSome = true := by
  unfold clear
  split
  · exact ho
  · split
    next c hc =>
      rw [Host.object?_setObject hc]
      split
      · rfl
      · exact ho
    next => exact ho

end Notifier

/-! ### Channels and broadcasts -/

namespace Channels

open Host (Confined Counts)

variable {α : Type} {t t' : Channels α} {h h' : Host} {id j fd : Nat} {c c' : Channel α}

/-- The descriptor of the bell of a channel. -/
def bell? (t : Channels α) (id : Nat) : Option Nat := (t.get? id).bind (·.bell.descriptor)

theorem bell?_of_get? (hc : t.get? id = some c) : t.bell? id = c.bell.descriptor := by
  rw [bell?, hc, Option.bind_some]

theorem bell?_set (hc : t.get? id = some c) (hbell : c'.bell = c.bell) (j : Nat) :
    (t.set id c').bell? j = t.bell? j := by
  by_cases hj : j = id
  · rw [hj, bell?, get?_set, hc, Option.map_some, Option.bind_some, hbell, bell?_of_get? hc]
  · rw [bell?, get?_set_of_ne t c' hj, bell?]

theorem bell?_erase (t : Channels α) (id j : Nat) :
    (t.erase id).bell? j = if j = id then none else t.bell? j := by
  rw [bell?, get?_erase]
  split <;> rfl

/-- The descriptor is that of a bell of the table. -/
def HasBell (t : Channels α) (fd : Nat) : Prop := ∃ id, t.bell? id = some fd

/-- The bells of a table are counters, and no two channels share one. -/
structure Belled (t : Channels α) (h : Host) : Prop where
  counts : ∀ id fd, t.bell? id = some fd → h.Counts fd
  unshared : ∀ id id' fd, t.bell? id = some fd → t.bell? id' = some fd → id = id'

theorem Belled.of_confined {D : Nat → Prop} (ht : t.Belled h) (hc : h.Confined D h')
    (hD : ∀ fd, t.HasBell fd → ¬D fd) : t.Belled h' where
  counts id fd hfd := hc.counts (hD fd ⟨id, hfd⟩) (ht.counts id fd hfd)
  unshared := ht.unshared

/-- What happens to a table concerns its bells, and no bell comes to it. -/
structure Carries (t : Channels α) (h : Host) (t' : Channels α) (h' : Host) : Prop where
  bell?_eq : ∀ id fd, t'.bell? id = some fd → t.bell? id = some fd
  confined : h.Confined t.HasBell h'
  belled : t'.Belled h'

theorem Carries.refl (ht : t.Belled h) : Carries t h t h := ⟨fun _ _ => id, .refl _ h, ht⟩

theorem Carries.trans {t'' : Channels α} {h'' : Host} (h₁ : Carries t h t' h')
    (h₂ : Carries t' h' t'' h'') : Carries t h t'' h'' where
  bell?_eq id fd hfd := h₁.bell?_eq id fd (h₂.bell?_eq id fd hfd)
  confined := h₁.confined.trans
    (h₂.confined.mono fun fd ⟨id, hid⟩ => ⟨id, h₁.bell?_eq id fd hid⟩)
  belled := h₂.belled

theorem Carries.note (hc : Carries t h t' h') (n : Notice) : Carries t h t' (h'.note n) where
  bell?_eq := hc.bell?_eq
  confined := hc.confined.trans (.note _ h' n)
  belled := hc.belled.of_confined (.note (fun _ => False) h' n) fun _ _ => id

/-- A channel is replaced by one with the same bell. -/
theorem Carries.set (ht : t.Belled h) (hc : t.get? id = some c) (hbell : c'.bell = c.bell)
    (hconf : h.Confined t.HasBell h') (hcounts : ∀ fd, h.Counts fd → h'.Counts fd) :
    Carries t h (t.set id c') h' := by
  refine ⟨fun j fd hfd => ?_, hconf, fun j fd hfd => ?_, fun j j' fd hj hj' => ?_⟩
  · rwa [bell?_set hc hbell] at hfd
  · rw [bell?_set hc hbell] at hfd
    exact hcounts fd (ht.counts j fd hfd)
  · rw [bell?_set hc hbell] at hj hj'
    exact ht.unshared j j' fd hj hj'

theorem carries_send (ht : t.Belled h) (id : Nat) (v : α) :
    Carries t h (t.send id v h).2.1 (t.send id v h).2.2 := by
  unfold send
  cases hc : t.get? id with
  | none => exact .refl ht
  | some c =>
    dsimp only
    cases hs : c.send v h with
    | error e => exact .refl ht
    | ok r =>
      obtain ⟨c', h'⟩ := r
      obtain ⟨-, -, hc'⟩ := Channel.send_ok hs
      have hbell : c'.bell = c.bell := by rw [hc']
      dsimp only
      rw [Channel.host_send hs]
      split
      · obtain ⟨hconf, hcounts⟩ := c.bell.confined_set (D := t.HasBell)
          (fun fd hfd => ⟨id, by rw [bell?_of_get? hc, hfd]⟩) h
        exact .set ht hc hbell hconf hcounts
      · exact .set ht hc hbell (.refl _ _) fun _ hcounts => hcounts

/-- A sender goes; if it was the last to use the channel, the bell goes too. -/
theorem carries_detach (ht : t.Belled h) (id : Nat) :
    Carries t h (t.modify id Channel.detach h).1 (t.modify id Channel.detach h).2 := by
  unfold modify
  cases hc : t.get? id with
  | none => exact .refl ht
  | some c =>
    dsimp only
    unfold put
    split
    next horphan =>
      have hbell : c.detach.bell = c.bell := rfl
      have herase : ∀ j fd, (t.erase id).bell? j = some fd → j ≠ id ∧ t.bell? j = some fd := by
        intro j fd hj
        rw [bell?_erase] at hj
        split at hj
        · cases hj
        next hne => exact ⟨hne, hj⟩
      unfold Channel.release Notifier.close
      rw [if_pos horphan, hbell]
      cases hd : c.bell.descriptor with
      | none =>
        refine ⟨fun j fd hj => (herase j fd hj).2, .refl _ h, fun j fd hj => ?_,
          fun j j' fd hj hj' => ?_⟩
        · exact ht.counts j fd (herase j fd hj).2
        · exact ht.unshared j j' fd (herase j fd hj).2 (herase j' fd hj').2
      | some b =>
        have hb : t.bell? id = some b := by rw [bell?_of_get? hc, hd]
        obtain ⟨n, ho⟩ := ht.counts id b hb
        refine ⟨fun j fd hj => (herase j fd hj).2, .close ho ⟨id, hb⟩, fun j fd hj => ?_,
          fun j j' fd hj hj' => ?_⟩
        · obtain ⟨hne, hj⟩ := herase j fd hj
          -- the bell that is closed is not that of another channel
          have hfd : fd ≠ b := fun heq => hne (ht.unshared j id b (heq ▸ hj) hb)
          exact (Confined.close ho (D := (· = b)) rfl).counts hfd (ht.counts j fd hj)
        · exact ht.unshared j j' fd (herase j fd hj).2 (herase j' fd hj').2
    next => exact .set ht hc rfl (.refl _ h) fun _ hcounts => hcounts

end Channels

namespace Broadcast

open Channels (Carries)

variable {α : Type} {t : Channels α} {h : Host}

theorem carries_offer (v : α) (ids : List Nat) : ∀ {t : Channels α} {h : Host}, t.Belled h →
    Carries t h (offer v t h ids).2.2.1 (offer v t h ids).2.2.2 := by
  induction ids with
  | nil =>
    intro t h ht
    exact .refl ht
  | cons id rest ih =>
    intro t h ht
    have hsend := Channels.carries_send ht id v
    unfold offer
    split
    next t' h' hs =>
      rw [hs] at hsend
      exact hsend.trans (ih hsend.belled)
    next e t' h' hs =>
      rw [hs] at hsend
      dsimp only
      split <;> exact hsend.trans (ih hsend.belled)

theorem carries_detachAll (ids : List Nat) : ∀ {t : Channels α} {h : Host}, t.Belled h →
    let r := ids.foldl (fun (t, h) id => t.modify id Channel.detach h) (t, h)
    Carries t h r.1 r.2 := by
  induction ids with
  | nil =>
    intro t h ht
    exact .refl ht
  | cons id rest ih =>
    intro t h ht
    have hdetach := Channels.carries_detach ht id
    exact hdetach.trans (ih hdetach.belled)

/-- **Publishing concerns the bells of the subscribers**, if they are its own. -/
theorem carries_publish (b : Broadcast) (v : α) (ht : t.Belled h) :
    Carries t h (b.publish v t h).2.2.1 (b.publish v t h).2.2.2 := by
  have hoffer := carries_offer v b.subscribers ht
  rcases ho : offer v t h b.subscribers with ⟨refused, gone, t', h'⟩
  rw [ho] at hoffer
  unfold publish
  rw [ho]
  dsimp only
  cases gone with
  | false =>
    rw [if_neg Bool.false_ne_true]
    dsimp only
    split
    · exact hoffer
    · exact hoffer.note _
  | true =>
    have hprune : Carries t' h' (b.prune t' h').2.1 (b.prune t' h').2.2 :=
      carries_detachAll _ hoffer.belled
    rw [if_pos rfl]
    split
    · exact hoffer.trans hprune
    · exact (hoffer.trans hprune).note _

end Broadcast

/-! ### Registrations -/

namespace Loop

variable {D : Nat → Prop} {T : Token → Prop} {l l' l'' : Loop} {token : Token}

/-- Of what is open and registered, only descriptors in `D` and tokens in `T` are concerned. -/
structure Confined (D : Nat → Prop) (T : Token → Prop) (l l' : Loop) : Prop where
  host : l.host.Confined D l'.host
  poller_eq : l'.system.poller = l.system.poller
  get?_eq : ∀ token, ¬T token → l'.system.table.get? token = l.system.table.get? token

namespace Confined

theorem refl (D : Nat → Prop) (T : Token → Prop) (l : Loop) : Confined D T l l :=
  ⟨.refl D l.host, rfl, fun _ _ => rfl⟩

theorem trans (h₁ : Confined D T l l') (h₂ : Confined D T l' l'') : Confined D T l l'' where
  host := h₁.host.trans h₂.host
  poller_eq := h₂.poller_eq.trans h₁.poller_eq
  get?_eq token ht := (h₂.get?_eq token ht).trans (h₁.get?_eq token ht)

/-- Only the host is concerned. -/
theorem of_host {h : Host} (hc : l.host.Confined D h) : Confined D T l { l with host := h } :=
  ⟨hc, rfl, fun _ _ => rfl⟩

end Confined

/-- What is watched differently is what was registered under the token. -/
theorem confined_reregister {r : Registration} (hr : l.system.table.get? token = some r)
    (hD : ∀ fd, r.descriptor = some fd → D fd) (hT : T token) (i : Interest) :
    Confined D T l (l.reregister token i).2 ∧
      ∃ i', (l.reregister token i).2.system.table.get? token = some ⟨r.descriptor, i'⟩ := by
  rcases hreg : l.reregister token i with ⟨answer, l'⟩
  cases answer with
  | error e =>
    rw [reregister_error hreg]
    exact ⟨.refl D T l, r.interest, hr⟩
  | ok u =>
    have hget := get?_reregister_ok hreg hr
    obtain ⟨r', host, hr', hmod, hl'⟩ := reregister_ok hreg
    rw [hr] at hr'
    cases hr'
    refine ⟨⟨?_, ?_, fun j hj => ?_⟩, i, ?_⟩
    · rw [hl']
      exact .modify (Poller.modify_ok hmod) hD
    · rw [hl']
      rfl
    · rw [hget, if_neg (fun heq : j = token => hj (heq ▸ hT))]
    · rw [hget, if_pos rfl]

end Loop

/-- An event concerns what is registered under its token. -/
theorem Evented.confined_accept {ι : Type} {D : Nat → Prop} {T : Token → Prop} (e : Evented ι)
    (event : Event) {l : Loop} {r : Registration}
    (hr : l.system.table.get? event.token = some r)
    (hD : ∀ fd, r.descriptor = some fd → D fd) (hT : T event.token) :
    l.Confined D T (e.accept event l).2.2 ∧
      ∃ i, (e.accept event l).2.2.system.table.get? event.token = some ⟨r.descriptor, i⟩ := by
  rcases e.accept_cases event l with ⟨hl, -, -⟩ | ⟨-, -, -, hreg | ⟨f, -, hl⟩⟩
  · rw [hl]
    exact ⟨.refl D T l, r.interest, hr⟩
  · have hconf := Loop.confined_reregister hr hD hT e.interest
    rwa [hreg] at hconf
  · rw [hl]
    exact ⟨.of_host (.note D l.host _), r.interest, hr⟩

end EventLoop

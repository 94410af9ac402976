import EventLoop.Proofs.Registration.Tenancy
import EventLoop.Proofs.Registration.Watching

/-!
# What operations do to the watches

The multiplexer of a loop watches descriptors, each with a token and a mask.  An
operation on a registration adds one watch, changes one or takes some away, and
closing a descriptor takes some away.  A loop is tidy if its multiplexer watches
only what it could be asked to watch; then a change of interest fails only if the
descriptor is not watched.

## Main definitions

* `Loop.watched` — what the multiplexer of a loop watches.
* `Loop.Tidy` — it could be asked to watch what it watches.
* `Loop.Shrinks l l'` — nothing is watched after that was not watched before.

## Main results

* `Host.control_spec` — what a multiplexer that complies has checked and changed.
* `Loop.watched_registerAt_ok`, `Loop.watched_reregister_ok` — one watch is added, or
  changed.
* `Loop.unwatched_of_reregister_error` — **an interest that cannot be changed is that of a
  descriptor that is not watched.**
* `Loop.shrinks_close` — closing a descriptor takes watches away only.
-/

namespace EventLoop

/-! ### Changes -/

/-- What an object is once every multiplexer has forgotten a descriptor. -/
def Object.without (fd : Nat) : Object → Object
  | .multiplexer watches => .multiplexer (watches.filter (·.descriptor != fd))
  | o => o

namespace Control

variable {watches watches' : List Watch} {fd : Nat}

theorem apply_error {c : Control} {e : Errno} (h : c.apply watches fd = .error e) :
    e.isWouldBlock = false := by
  cases c with
  | add token mask =>
    simp only [apply] at h
    split at h
    · cases h; rfl
    · cases h
  | modify token mask =>
    simp only [apply] at h
    split at h
    · cases h
    · cases h; rfl
  | remove =>
    simp only [apply] at h
    split at h
    · cases h
    · cases h; rfl

theorem mem_of_apply_remove (h : apply watches fd .remove = .ok watches') {w : Watch}
    (hw : w ∈ watches') : w ∈ watches := by
  simp only [apply] at h
  split at h
  · cases h
    exact List.mem_of_mem_filter hw
  · cases h

end Control

theorem Poller.remove_ok {p : Poller} {fd : Option Nat} {h h' : Host}
    (hr : p.remove fd h = .ok h') : h.control p.descriptor fd .remove = .ok h' := by
  unfold remove at hr
  cases hc : h.control p.descriptor fd .remove with
  | error e => rw [hc] at hr; cases hr
  | ok host => rw [hc] at hr; cases hr; rfl

/-! ### Hosts -/

namespace Host

variable {h h' : Host} {fd : Nat}

theorem mem_watches_iff {p : Option Nat} {w : Watch} : w ∈ h.watches p ↔
    ∃ q watches, p = some q ∧ h.object? q = some (.multiplexer watches) ∧ w ∈ watches := by
  constructor
  · intro hw
    cases p with
    | none => cases hw
    | some q =>
      unfold watches at hw
      rw [objectOf?_some] at hw
      split at hw
      · next watches ho => exact ⟨q, watches, rfl, ho, hw⟩
      · cases hw
  · rintro ⟨q, watches, rfl, ho, hw⟩
    rw [watches_eq ho]
    exact hw

/-- What a multiplexer that complies has checked and changed. -/
theorem control_spec {p fd : Option Nat} {c : Control} (hc : h.control p fd c = .ok h') :
    ∃ f, fd = some f ∧ p ≠ some f ∧ h.Watchable f ∧
      c.apply (h.watches p) f = .ok (h'.watches p) ∧ ∀ d, h.Watchable d → h'.Watchable d := by
  obtain ⟨q, f, watches, watches', rfl, rfl, hne, ho, hf, happ, rfl⟩ := control_ok hc
  have ho' : (h.setObject q (.multiplexer watches')).object? q = some (.multiplexer watches') := by
    rw [object?_setObject ho, if_pos rfl]
  refine ⟨f, rfl, fun heq => hne (Option.some.inj heq), hf, ?_, fun d hd =>
    hd.setObject ho (fun h => nomatch h)⟩
  rw [watches_eq ho, watches_eq ho']
  exact happ

/-- A multiplexer that refuses never means "not now". -/
theorem control_error {p fd : Option Nat} {c : Control} {e : Errno}
    (hc : h.control p fd c = .error e) : e.isWouldBlock = false := by
  unfold control at hc
  split at hc
  · next q f =>
    split at hc
    · cases hc; rfl
    · cases hc; rfl
    · cases hc; rfl
    · next watches o _ _ _ =>
      split at hc
      · cases hc; rfl
      · cases happ : c.apply watches f with
        | ok watches' => rw [happ] at hc; cases hc
        | error e' =>
          rw [happ] at hc
          cases hc
          exact c.apply_error happ
    · cases hc; rfl
  · cases hc; rfl

/-! #### Closing -/

theorem object?_unwatch (h : Host) (fd j : Nat) :
    (h.unwatch fd).object? j = (h.object? j).map (Object.without fd) := by
  unfold unwatch object?
  dsimp only
  rw [Array.getElem?_map]
  cases h.descriptors[j]? with
  | none => rfl
  | some o =>
    cases o with
    | none => rfl
    | some o => cases o <;> rfl

theorem descriptors_hangUp (h : Host) (number : Nat) (unaccepted : Bool) :
    (h.hangUp number unaccepted).descriptors = h.descriptors := by
  unfold hangUp
  split <;> rfl

theorem descriptors_discard (h : Host) (fd : Nat) (o : Object) :
    (h.discard fd o).descriptors = h.descriptors := by
  cases o with
  | stream number => exact descriptors_hangUp h number false
  | listener bound backlog =>
    -- each connection that nobody accepted is hung up
    have hall : ∀ (backlog : List Nat) (h : Host),
        (backlog.foldl (fun h number => h.hangUp number true) h).descriptors = h.descriptors := by
      intro backlog
      induction backlog with
      | nil => exact fun h => rfl
      | cons number rest ih =>
        intro h
        rw [List.foldl_cons, ih, descriptors_hangUp]
    exact hall backlog (h.releaseNames fd)
  | _ => rfl

theorem close_of_vacant (ho : h.object? fd = none) : h.close fd = h := by
  unfold close
  rw [ho]

/-- Closing a descriptor frees its number, and every multiplexer forgets it. -/
theorem object?_close {o : Object} (ho : h.object? fd = some o) (j : Nat) :
    (h.close fd).object? j
      = if j = fd then none else (h.object? j).map (Object.without fd) := by
  have hdesc : (h.close fd).descriptors
      = (h.unwatch fd).descriptors.setIfInBounds fd none := by
    unfold close
    rw [ho]
    dsimp only
    rw [descriptors_discard]
  have hlt : fd < (h.unwatch fd).descriptors.size := by
    show fd < (h.descriptors.map _).size
    rw [Array.size_map]
    exact lt_size_of_object? ho
  rw [← object?_unwatch, object?, object?, hdesc, Array.getElem?_setIfInBounds]
  by_cases hj : j = fd
  · rw [if_pos hj.symm, if_pos hlt, if_pos hj]
    rfl
  · rw [if_neg (Ne.symm hj), if_neg hj]

/-- What is watched once a descriptor is closed was watched before, and is another one. -/
theorem mem_watches_close {p : Option Nat} {w : Watch} {o : Object} (ho : h.object? fd = some o)
    (hw : w ∈ (h.close fd).watches p) : w ∈ h.watches p ∧ w.descriptor ≠ fd := by
  rw [mem_watches_iff] at hw
  obtain ⟨q, watches, rfl, hq, hw⟩ := hw
  rw [object?_close ho] at hq
  split at hq
  · cases hq
  · obtain ⟨old, hold, hwithout⟩ := Option.map_eq_some_iff.mp hq
    cases old with
    | multiplexer watches' =>
      cases hwithout
      obtain ⟨hmem, hne⟩ := List.mem_filter.mp hw
      exact ⟨mem_watches_iff.mpr ⟨q, watches', rfl, hold, hmem⟩, bne_iff_ne.mp hne⟩
    | _ => cases hwithout

theorem Watchable.close {o : Object} (ho : h.object? fd = some o) {d : Nat} (hd : h.Watchable d)
    (hne : d ≠ fd) : (h.close fd).Watchable d := by
  obtain ⟨w, hw, hfile⟩ := hd
  refine ⟨w.without fd, ?_, ?_⟩
  · rw [object?_close ho, if_neg hne, hw]
    rfl
  · cases w with
    | file => exact absurd rfl hfile
    | _ => exact fun h => nomatch h

end Host

/-! ### Loops -/

namespace Loop

variable {l l' l'' : Loop} {fd : Option Nat} {token : Token} {i : Interest} {f : Failure}

/-- What the multiplexer of a loop watches. -/
def watched (l : Loop) : List Watch := l.host.watches l.system.poller.descriptor

/-- What is watched can be, and is not the multiplexer itself. -/
def Tidy (l : Loop) : Prop :=
  ∀ w ∈ l.watched, l.system.poller.descriptor ≠ some w.descriptor ∧ l.host.Watchable w.descriptor

/-- Nothing is watched after that was not watched before. -/
structure Shrinks (l l' : Loop) : Prop where
  poller_eq : l'.system.poller = l.system.poller
  watched : ∀ w ∈ l'.watched, w ∈ l.watched
  tidy : l.Tidy → l'.Tidy

namespace Shrinks

theorem refl (l : Loop) : Shrinks l l := ⟨rfl, fun _ h => h, id⟩

theorem trans (h : Shrinks l l') (h' : Shrinks l' l'') : Shrinks l l'' where
  poller_eq := h'.poller_eq.trans h.poller_eq
  watched w hw := h.watched w (h'.watched w hw)
  tidy ht := h'.tidy (h.tidy ht)

/-- Only what is said and what is in the table differs. -/
theorem of_object?_eq (hp : l'.system.poller = l.system.poller)
    (ho : ∀ fd, l'.host.object? fd = l.host.object? fd) : Shrinks l l' := by
  have hobj : l'.host.object? = l.host.object? := funext ho
  have hw : l'.watched = l.watched := by
    unfold Loop.watched Host.watches Host.objectOf?
    rw [hp, hobj]
  refine ⟨hp, fun w h => hw ▸ h, fun ht w h => ?_⟩
  rw [hw] at h
  unfold Host.Watchable
  rw [hp, hobj]
  exact ht w h

end Shrinks

/-! #### Registering -/

theorem shrinks_registerAt_error (h : l.registerAt fd token i = (.error f, l')) :
    Shrinks l l' := by
  have hframe := sameFrame_registerAt l fd token i
  rw [h] at hframe
  refine .of_object?_eq hframe.poller_eq fun j => ?_
  rw [host_registerAt_error h]

/-- A registration adds a watch, of a descriptor that was not watched. -/
theorem watched_registerAt_ok (h : l.registerAt fd token i = (.ok (), l')) :
    ∃ d, fd = some d ∧ d ∉ l.watched.map (·.descriptor) ∧
      l'.watched = l.watched ++ [⟨d, token, i.mask⟩] ∧ (l.Tidy → l'.Tidy) := by
  obtain ⟨-, table, host, -, hadd, rfl⟩ := registerAt_ok h
  obtain ⟨d, rfl, hne, hd, happ, hkept⟩ := Host.control_spec (Poller.add_ok hadd)
  obtain ⟨hnot, hnew⟩ := Control.apply_add_ok happ
  refine ⟨d, rfl, hnot, hnew, fun ht w hw => ?_⟩
  have hmem : w ∈ l.watched ++ [⟨d, token, i.mask⟩] := hnew ▸ hw
  rcases List.mem_append.mp hmem with hold | hone
  · obtain ⟨hp, hwatch⟩ := ht w hold
    exact ⟨hp, hkept _ hwatch⟩
  · rw [List.mem_singleton] at hone
    rw [hone]
    exact ⟨hne, hkept d hd⟩

/-! #### Changing an interest -/

/-- The watch of a descriptor is changed, and no other. -/
theorem watched_reregister_ok {d : Option Nat} (hd : l.lodged token = some d)
    (h : l.reregister token i = (.ok (), l')) :
    (∀ w ∈ l'.watched, (d = some w.descriptor → w.token = token ∧ w.mask = i.mask) ∧
      (d ≠ some w.descriptor → w ∈ l.watched)) ∧ (l.Tidy → l'.Tidy) := by
  obtain ⟨r, host, hr, hmod, rfl⟩ := reregister_ok h
  obtain ⟨r', hr', rfl⟩ := lodged_eq_some_iff.mp hd
  cases hr.symm.trans hr'
  obtain ⟨f, hf, hne, hwf, happ, hkept⟩ := Host.control_spec (Poller.modify_ok hmod)
  obtain ⟨hmem, hnew⟩ := Control.apply_modify_ok happ
  have hiff : ∀ w, w ∈ Loop.watched { (l.withTable (l.system.table.set token
      { r with interest := i })) with host := host } ↔
      w = ⟨f, token, i.mask⟩ ∨ (w ∈ l.watched ∧ w.descriptor ≠ f) := by
    intro w
    show w ∈ host.watches l.system.poller.descriptor ↔ _
    rw [hnew]
    exact Control.mem_replace hmem
  rw [hf]
  refine ⟨fun w hw => ⟨fun hwd => ?_, fun hwd => ?_⟩, fun ht w hw => ?_⟩
  · rcases (hiff w).mp hw with rfl | ⟨-, hwf⟩
    · exact ⟨rfl, rfl⟩
    · exact absurd (Option.some.inj hwd).symm hwf
  · rcases (hiff w).mp hw with rfl | ⟨hold, -⟩
    · exact absurd rfl hwd
    · exact hold
  · rcases (hiff w).mp hw with rfl | ⟨hold, -⟩
    · exact ⟨hne, hkept f hwf⟩
    · obtain ⟨hp, hwatch⟩ := ht w hold
      exact ⟨hp, hkept _ hwatch⟩

/-- **An interest that cannot be changed is that of a descriptor that is not watched**, if the
loop is tidy; and the failure never means "not now". -/
theorem unwatched_of_reregister_error {d : Option Nat} (hd : l.lodged token = some d)
    (ht : l.Tidy) (h : l.reregister token i = (.error f, l')) :
    (∀ w ∈ l.watched, d ≠ some w.descriptor) ∧ f.isWouldBlock = false := by
  obtain ⟨r, hr, rfl⟩ := lodged_eq_some_iff.mp hd
  unfold reregister at h
  rw [hr] at h
  dsimp only at h
  unfold Poller.modify at h
  cases hc : l.host.control l.system.poller.descriptor r.descriptor (.modify token i.mask) with
  | ok host => rw [hc] at h; cases h
  | error e =>
    rw [hc] at h
    cases h
    refine ⟨fun w hw hwd => ?_, Host.control_error hc⟩
    -- a tidy multiplexer complies if the descriptor is watched
    obtain ⟨hne, hwatch⟩ := ht w hw
    obtain ⟨p, watches, hp, ho, hmem⟩ := Host.mem_watches_iff.mp hw
    rw [hp] at hc hne
    rw [hwd, Host.control_eq (fun heq => hne (congrArg some heq)) ho hwatch] at hc
    unfold Control.apply at hc
    dsimp only at hc
    rw [if_pos (Control.any_descriptor_iff.mpr (List.mem_map.mpr ⟨w, hmem, rfl⟩))] at hc
    cases hc

/-! #### Ending -/

theorem shrinks_deregister (l : Loop) (token : Token) : Shrinks l (l.deregister token).2 := by
  have hframe := sameFrame_deregister l token
  unfold deregister at hframe ⊢
  cases hr : l.system.table.get? token with
  | none =>
    rw [Slab.remove_none hr]
    exact .refl l
  | some r =>
    rw [Slab.remove_some hr] at hframe ⊢
    dsimp only at hframe ⊢
    rw [poller_withTable, host_withTable] at hframe ⊢
    cases hrem : l.system.poller.remove r.descriptor l.host with
    | error e =>
      rw [hrem] at hframe
      dsimp only at hframe ⊢
      split <;> exact .of_object?_eq rfl fun _ => rfl
    | ok host =>
      obtain ⟨f, -, -, -, happ, hkept⟩ := Host.control_spec (Poller.remove_ok hrem)
      have hsub : ∀ w ∈ host.watches l.system.poller.descriptor, w ∈ l.watched :=
        fun w hw => Control.mem_of_apply_remove happ hw
      refine ⟨rfl, hsub, fun ht w hw => ?_⟩
      obtain ⟨hp, hwatch⟩ := ht w (hsub w hw)
      obtain ⟨o, ho, hfile⟩ := hkept _ hwatch
      exact ⟨hp, o, ho, hfile⟩

/-- Closing a descriptor takes watches away only. -/
theorem shrinks_close (l : Loop) (fd : Option Nat) :
    Shrinks l { l with host := l.host.close? fd } := by
  cases fd with
  | none => exact .refl l
  | some fd =>
    cases ho : l.host.object? fd with
    | none =>
      show Shrinks l { l with host := l.host.close fd }
      rw [Host.close_of_vacant ho]
      exact .refl l
    | some o =>
      refine ⟨rfl, fun w hw => (Host.mem_watches_close ho hw).1, fun ht w hw => ?_⟩
      obtain ⟨hold, hne⟩ := Host.mem_watches_close ho hw
      obtain ⟨hp, hwatch⟩ := ht w hold
      exact ⟨hp, hwatch.close ho hne⟩

end Loop
end EventLoop

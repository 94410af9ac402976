import EventLoop.Proofs.Evented.Interest
import EventLoop.Proofs.Evented.Ownership
import Mathlib.Data.Nat.Bitwise

/-!
# Writes that wait

A write that has to wait is to be woken when there is room.  If the stream is
registered then, writable readiness is asked for at once, and from then on the
multiplexer watches for it, wherever the stream moves and whatever else happens,
until an event of its own reports room or closure, its interest is replaced, or it
gives its token back.  So the first wait after there is room reports it.

A stream that is not registered has nobody to ask.  The write leaves no trace, and
whoever registers it later is watched for what it was made or retuned for, and
nothing more.

That somebody is watched at all takes more than that nobody adds watches of its
descriptor.  Nobody may take them away either, and the multiplexer is nobody's
stream.

## Main definitions

* `Loop.Spares` — the watches of other descriptors stay.
* `Rack.Attentive` — what may happen while watches are relied upon.
* `Rack.Vigilant` — the invariant: who is registered is watched, and who waits is
  registered.
* `Rack.Relieves`, `Rack.Meanwhile` — what ends the waiting of a stream; runs in which it goes
  on, with the place where the stream is.

## Main results

* `Evented.Use.tends_run` — what a use does to the watches.
* `Rack.Vigilant.act` — acts keep the invariant.
* `Rack.Vigilant.waits_act` — **a stream goes on waiting until it is relieved.**
* `Rack.Reachable.wakeup_spec` — no wake-up is lost by a stream that was registered when
  it had to wait.
-/

namespace EventLoop

variable {ι : Type}

/-! ### Flags -/

namespace Mask

theorem meets_output_iff (m : Mask) : m.meets .output = true ↔ m.bits.toNat.testBit 2 = true := by
  -- the flag for output is the bit with the number 2
  have hand : (m.bits &&& 4).toNat = (m.bits.toNat.testBit 2).toNat * 2 ^ 2 := by
    rw [UInt32.toNat_and]
    exact Nat.and_two_pow _ 2
  have hzero : (m.bits &&& 4) = 0 ↔ (m.bits &&& 4).toNat = 0 := by
    rw [← UInt32.toNat_inj]
    rfl
  unfold meets inter isEmpty output
  dsimp only
  rw [Bool.not_eq_true', beq_eq_false_iff_ne, ne_eq, hzero, hand]
  cases m.bits.toNat.testBit 2 <;> decide

/-- What is both the case and asked for is reported. -/
theorem meets_output_inter {a b c : Mask} (ha : a.meets .output = true)
    (hb : b.meets .output = true) : (a.inter (b.union c)).meets .output = true := by
  rw [meets_output_iff] at ha hb ⊢
  unfold inter union
  dsimp only
  rw [UInt32.toNat_and, UInt32.toNat_or, Nat.testBit_and, Nat.testBit_or, ha, hb]
  rfl

theorem not_isEmpty_of_meets {m a : Mask} (h : m.meets a = true) : m.isEmpty = false := by
  cases he : m.isEmpty with
  | false => rfl
  | true =>
    unfold isEmpty at he
    rw [beq_iff_eq] at he
    unfold meets inter isEmpty at h
    simp [he] at h

end Mask

@[simp] theorem Interest.meets_output_mask (i : Interest) : i.mask.meets .output = i.isWritable := by
  cases i <;> decide

/-! ### Waits -/

namespace Host

variable {h : Host} {p : Option Nat} {w : Watch}

/-- A watched descriptor with room is reported, if that is asked for. -/
theorem exists_mem_readySet (hw : w ∈ h.watches p) (hmask : w.mask.meets .output = true)
    (hroom : (h.readiness (some w.descriptor)).meets .output = true) :
    ∃ m, (w.token, m) ∈ h.readySet p ∧ m.ready.isWritable = true := by
  have hmeets := Mask.meets_output_inter (c := .always) hroom hmask
  refine ⟨(h.readiness (some w.descriptor)).inter (w.mask.union .always), ?_, ?_⟩
  · unfold readySet
    -- the order of the reports does not matter here
    rw [List.mem_mergeSort, List.mem_filterMap]
    refine ⟨w, hw, ?_⟩
    unfold reportOf
    dsimp only
    rw [Mask.not_isEmpty_of_meets hmeets, if_neg Bool.false_ne_true]
  · unfold Mask.ready
    rw [Ready.isWritable_ofFlags]
    exact hmeets

/-- A wait with room for all reports gives them all. -/
theorem await_of_mem {r : Token × Mask} (hr : r ∈ h.readySet p) {most : Int}
    (hmost : (h.readySet p).length ≤ most) (timeout : Int) :
    (h.await .live p most timeout).1 = .ok (h.readySet p) := by
  have hne : h.readySet p ≠ [] := List.ne_nil_of_mem hr
  have hpos : 0 < (h.readySet p).length := List.length_pos_of_mem hr
  have hroom : (h.readySet p).length ≤ most.toNat := by omega
  -- a wait on what is no multiplexer fails, but then nothing would be ready there
  have hobject : ∃ watches, h.objectOf? p = some (.multiplexer watches) := by
    cases hw : h.watches p with
    | nil =>
      simp [readySet, hw] at hr
    | cons w rest =>
      have hmem : w ∈ h.watches p := hw ▸ List.mem_cons_self
      obtain ⟨q, watches, rfl, ho, -⟩ := mem_watches_iff.mp hmem
      exact ⟨watches, ho⟩
  obtain ⟨watches, ho⟩ := hobject
  unfold await
  dsimp only
  rw [if_neg (by omega), ho, List.take_of_length_le hroom]
  cases hs : h.readySet p with
  | nil => exact absurd hs hne
  | cons r rest => rfl

end Host

/-- A wait with room for all reports tells of each of them. -/
theorem Poller.event_mem_wait {p : Poller} {h : Host} (hlive : p.source = .live)
    {r : Token × Mask} (hr : r ∈ h.readySet p.descriptor) {most : Nat}
    (hmost : (h.readySet p.descriptor).length ≤ asked most) (events : List Event)
    (timeout : Int) : event r ∈ (p.wait events most timeout h).2.1 := by
  have hawait := Host.await_of_mem hr hmost timeout
  -- an answer at the first attempt is the answer of the wait
  have hinsist : (p.insist (asked most) timeout attempts h).1 = .ok (h.readySet p.descriptor) := by
    unfold attempts insist
    rw [hlive]
    rcases hanswer : h.await .live p.descriptor (asked most) timeout with ⟨answer, h'⟩
    rw [hanswer] at hawait
    rw [show answer = .ok (h.readySet p.descriptor) from hawait]
  unfold wait
  rcases hanswer : p.insist (asked most) timeout attempts h with ⟨answer, h'⟩
  rw [hanswer] at hinsist
  rw [show answer = .ok (h.readySet p.descriptor) from hinsist]
  exact List.mem_append_right events (List.mem_map_of_mem hr)

/-! ### What is spared -/

namespace Loop

variable {l l' l'' : Loop} {fd : Option Nat} {token : Token} {i : Interest}

/-- A descriptor is watched. -/
def Watches (l : Loop) (fd : Option Nat) : Prop := ∃ w ∈ l.watched, fd = some w.descriptor

/-- The watches of other descriptors stay. -/
def Spares (l : Loop) (fd : Option Nat) (l' : Loop) : Prop :=
  ∀ w ∈ l.watched, fd ≠ some w.descriptor → w ∈ l'.watched

theorem Spares.of_watched_eq (h : l'.watched = l.watched) : l.Spares fd l' := by
  intro w hw _
  rw [h]
  exact hw

theorem Spares.trans (h : l.Spares fd l') (h' : l'.Spares fd l'') : l.Spares fd l'' := by
  intro w hw hne
  exact h' w (h w hw hne) hne

/-- Who is spared is watched as before. -/
theorem Watches.of_spares {d : Option Nat} (hd : l.Watches d) (h : l.Spares fd l')
    (hne : ∀ f, d = some f → fd ≠ some f) : l'.Watches d := by
  obtain ⟨w, hw, hwd⟩ := hd
  exact ⟨w, h w hw (hne _ hwd), hwd⟩

theorem spares_registerAt (l : Loop) (fd : Option Nat) (token : Token) (i : Interest) :
    l.Spares fd (l.registerAt fd token i).2 := by
  have hframe := sameFrame_registerAt l fd token i
  rcases hr : l.registerAt fd token i with ⟨r, l'⟩
  rw [hr] at hframe
  cases r with
  | error f =>
    -- a registration that fails is taken back
    refine .of_watched_eq ?_
    unfold watched
    rw [host_registerAt_error hr, hframe.poller_eq]
  | ok u =>
    obtain ⟨d, -, -, hwatched, -⟩ := watched_registerAt_ok hr
    intro w hw _
    show w ∈ l'.watched
    rw [hwatched]
    exact List.mem_append_left _ hw

theorem watches_registerAt_ok (h : l.registerAt fd token i = (.ok (), l')) : l'.Watches fd := by
  obtain ⟨d, hd, -, hwatched, -⟩ := watched_registerAt_ok h
  refine ⟨⟨d, token, i.mask⟩, ?_, hd⟩
  rw [hwatched]
  exact List.mem_append_right _ (List.mem_singleton_self _)

/-- A change of interest takes no watch away. -/
theorem spares_reregister_ok (hd : l.lodged token = some fd)
    (h : l.reregister token i = (.ok (), l')) : l.Spares fd l' ∧ l'.Watches fd := by
  obtain ⟨r, host, hr, hmod, rfl⟩ := reregister_ok h
  obtain ⟨r', hr', rfl⟩ := lodged_eq_some_iff.mp hd
  cases hr.symm.trans hr'
  obtain ⟨f, hf, -, -, happ, -⟩ := Host.control_spec (Poller.modify_ok hmod)
  obtain ⟨hmem, hnew⟩ := Control.apply_modify_ok happ
  -- the watch is replaced, and no other is concerned
  have hiff : ∀ w, w ∈ Loop.watched { (l.withTable (l.system.table.set token
      { r with interest := i })) with host := host } ↔
      w = ⟨f, token, i.mask⟩ ∨ (w ∈ l.watched ∧ w.descriptor ≠ f) := by
    intro w
    show w ∈ host.watches l.system.poller.descriptor ↔ _
    rw [hnew]
    exact Control.mem_replace hmem
  refine ⟨?_, ⟨f, token, i.mask⟩, (hiff _).mpr (Or.inl rfl), hf⟩
  intro w hw hne
  refine (hiff w).mpr (Or.inr ⟨hw, ?_⟩)
  rintro rfl
  exact hne hf

theorem spares_deregister (hd : l.lodged token = some fd) :
    l.Spares fd (l.deregister token).2 := by
  obtain ⟨r, hr, rfl⟩ := lodged_eq_some_iff.mp hd
  have hframe := sameFrame_deregister l token
  unfold deregister at hframe ⊢
  rw [Slab.remove_some hr] at hframe ⊢
  dsimp only at hframe ⊢
  rw [poller_withTable, host_withTable] at hframe ⊢
  cases hrem : l.system.poller.remove r.descriptor l.host with
  | error e =>
    rw [hrem] at hframe
    dsimp only at hframe ⊢
    -- the multiplexer refuses; the token is free all the same, but no watch has gone
    split <;> exact .of_watched_eq rfl
  | ok host =>
    obtain ⟨f, hf, -, -, happ, -⟩ := Host.control_spec (Poller.remove_ok hrem)
    intro w hw hne
    show w ∈ host.watches l.system.poller.descriptor
    have hwf : w.descriptor ≠ f := by
      rintro rfl
      exact hne hf
    unfold Control.apply at happ
    dsimp only at happ
    split at happ
    · rw [← Except.ok.inj happ]
      exact List.mem_filter.mpr ⟨hw, bne_iff_ne.mpr hwf⟩
    · cases happ

/-- Closing a descriptor, unless it is the multiplexer, spares the others. -/
theorem spares_close (l : Loop) (hne : ∀ f, fd = some f → l.system.poller.descriptor ≠ some f) :
    l.Spares fd { l with host := l.host.close? fd } := by
  cases fd with
  | none => exact .of_watched_eq rfl
  | some f =>
    cases ho : l.host.object? f with
    | none =>
      refine .of_watched_eq ?_
      show Host.watches (l.host.close f) _ = _
      rw [Host.close_of_vacant ho]
      rfl
    | some o =>
      intro w hw hwf
      obtain ⟨q, watches, hq, hmult, hmem⟩ := Host.mem_watches_iff.mp hw
      -- the descriptor is not that of the multiplexer, so only its watch goes with it
      have hqf : q ≠ f := by
        rintro rfl
        exact hne q rfl hq
      have hgone : (l.host.close f).object? q
          = some (.multiplexer (watches.filter (·.descriptor != f))) := by
        rw [Host.object?_close ho, if_neg hqf, hmult]
        rfl
      refine Host.mem_watches_iff.mpr ⟨q, _, hq, hgone, ?_⟩
      refine List.mem_filter.mpr ⟨hmem, bne_iff_ne.mpr ?_⟩
      rintro rfl
      exact hwf rfl

end Loop

/-! ### What a use does -/

namespace Evented

variable [Pollable ι] {e e' : Evented ι} {l l' : Loop}

/-- Who is registered is watched. -/
def Watched (e : Evented ι) (l : Loop) : Prop :=
  ∀ token, e.token = some token → l.Watches (Pollable.descriptor e.inner)

namespace Use

/-- What a use of a resource does to the watches: those of others stay, and so does its own, for
as long as it is registered. -/
structure Tends (e : Evented ι) (l : Loop) (e' : Evented ι) (l' : Loop) : Prop where
  spares : l.Spares (Pollable.descriptor e.inner) l'
  watched : e.Watched l → e'.Watched l'
  poller_eq : l'.system.poller = l.system.poller

/-- Nothing has happened to the watches, nor to what is registered. -/
theorem Tends.of_watched_eq (hl : l'.watched = l.watched)
    (hp : l'.system.poller = l.system.poller)
    (hd : Pollable.descriptor e'.inner = Pollable.descriptor e.inner)
    (ht : e'.token = e.token) : Tends e l e' l' where
  spares := .of_watched_eq hl
  watched hw token htoken := by
    obtain ⟨w, hw, hwd⟩ := hw token (ht.symm.trans htoken)
    exact ⟨w, hl ▸ hw, hd.trans hwd⟩
  poller_eq := hp

/-- The loop has complied with a change of interest. -/
theorem Tends.of_retuned {token : Token} {i : Interest}
    (hlodged : l.lodged token = some (Pollable.descriptor e.inner))
    (hr : l.reregister token i = (.ok (), l'))
    (hd : Pollable.descriptor e'.inner = Pollable.descriptor e.inner) : Tends e l e' l' := by
  obtain ⟨hspares, hwatches⟩ := Loop.spares_reregister_ok hlodged hr
  have hframe := Loop.sameFrame_reregister l token i
  rw [hr] at hframe
  exact ⟨hspares, fun _ _ _ => hd ▸ hwatches, hframe.poller_eq⟩

theorem tends_registerAt (e : Evented ι) (l : Loop) (token : Token) :
    Tends e l (e.registerAt token l).2.1 (e.registerAt token l).2.2 := by
  unfold Evented.registerAt
  cases htoken : e.token with
  | some t => exact .of_watched_eq rfl rfl rfl rfl
  | none =>
    dsimp only
    have hspares := Loop.spares_registerAt l (Pollable.descriptor e.inner) token e.interest
    have hframe := Loop.sameFrame_registerAt l (Pollable.descriptor e.inner) token e.interest
    rcases hr : l.registerAt (Pollable.descriptor e.inner) token e.interest with ⟨r, l'⟩
    rw [hr] at hspares hframe
    cases r with
    | error f =>
      refine ⟨hspares, fun _ t ht => ?_, hframe.poller_eq⟩
      cases htoken.symm.trans ht
    | ok u => exact ⟨hspares, fun _ _ _ => Loop.watches_registerAt_ok hr, hframe.poller_eq⟩

theorem tends_reregister (hlodged : e.Lodged l) (i : Interest) :
    Tends e l (e.reregister i l).2.1 (e.reregister i l).2.2 := by
  rcases e.reregister_cases i l with ⟨hnone, h⟩ | ⟨token, htoken, ⟨l', hr, h⟩ | ⟨f, -, h⟩⟩
  · rw [h]
    exact .of_watched_eq rfl rfl rfl rfl
  · rw [h]
    exact .of_retuned (hlodged token htoken) hr rfl
  · rw [h]
    exact .of_watched_eq rfl rfl rfl rfl

theorem tends_deregister (hlodged : e.Lodged l) :
    Tends e l (e.deregister l).2.1 (e.deregister l).2.2 := by
  have hframe := e.sameFrame_deregister l
  unfold Evented.deregister at hframe ⊢
  -- it has no token any more, so there is nothing that it has to be watched for
  cases htoken : e.token with
  | none => exact .of_watched_eq rfl rfl rfl rfl
  | some token =>
    rw [htoken] at hframe
    refine ⟨Loop.spares_deregister (hlodged token htoken), fun _ t ht => ?_, hframe.poller_eq⟩
    cases ht

theorem tends_accept (hlodged : e.Lodged l) (event : Event) :
    Tends e l (e.accept event l).2.1 (e.accept event l).2.2 := by
  rcases e.accept_cases event l with ⟨hl, hsame, -⟩ | ⟨-, htoken, hsame, hr | ⟨f, -, hl⟩⟩
  · rw [hl]
    exact .of_watched_eq rfl rfl (congrArg _ hsame.inner_eq) hsame.token_eq
  · exact .of_retuned (hlodged _ htoken) hr (congrArg _ hsame.inner_eq)
  · rw [hl]
    exact .of_watched_eq rfl rfl (congrArg _ hsame.inner_eq) hsame.token_eq

theorem tends_read {v : ι} (hv : Pollable.descriptor v = Pollable.descriptor e.inner)
    (r : Except Failure (List UInt8)) :
    Tends e l (({ e with inner := v } : Evented ι).afterRead r) l := by
  have hsame := sameSetting_afterRead { e with inner := v } r
  exact .of_watched_eq rfl rfl ((congrArg _ hsame.inner_eq).trans hv) hsame.token_eq

theorem tends_write (hlodged : e.Lodged l) {v : ι}
    (hv : Pollable.descriptor v = Pollable.descriptor e.inner) (r : Except Failure Nat) :
    Tends e l (({ e with inner := v } : Evented ι).afterWrite r l).2.1
      (({ e with inner := v } : Evented ι).afterWrite r l).2.2 := by
  rcases afterWrite_cases { e with inner := v } r l with ⟨hl, hsame, -⟩ |
    ⟨token, htoken, -, ⟨hr, hsame, -⟩ | ⟨g, -, hl, hsame, -⟩⟩
  · rw [hl]
    exact .of_watched_eq rfl rfl ((congrArg _ hsame.inner_eq).trans hv) hsame.token_eq
  · exact .of_retuned (hlodged token htoken) hr ((congrArg _ hsame.inner_eq).trans hv)
  · rw [hl]
    exact .of_watched_eq rfl rfl ((congrArg _ hsame.inner_eq).trans hv) hsame.token_eq

/-- **A use leaves the watches of others alone**, and its own for as long as its resource is
registered. -/
theorem tends_run (hlodged : e.Lodged l) {u : Use ι} (hu : u.Keeps e) :
    Tends e l (u.run e l).1 (u.run e l).2 := by
  cases u with
  | register =>
    show Tends e l (e.register l).2.1 (e.register l).2.2
    rw [register_eq]
    exact tends_registerAt e l _
  | registerAt token => exact tends_registerAt e l token
  | reregister i => exact tends_reregister hlodged i
  | deregister => exact tends_deregister hlodged
  | accept event => exact tends_accept hlodged event
  | read v r => exact tends_read hu r
  | write v r => exact tends_write hlodged hu r

/-- A use ends the waiting of its resource: an event of its own reports room or closure, its
interest is replaced, or its token is given back. -/
def Relieves (e : Evented ι) (l : Loop) : Use ι → Prop
  | .accept event => e.wakes event = true
  | .reregister i => (e.reregister i l).1.isOk = true
  | .deregister => True
  | _ => False

variable {u : Use ι} {story : List Deed}

omit [Pollable ι] in
/-- Who waits and is not relieved goes on waiting. -/
theorem waits_deeds (hw : Deed.waits story = true) (hr : ¬u.Relieves e l) :
    Deed.waits (u.deeds e l ++ story) = true := by
  cases u with
  | register => exact hw
  | registerAt token => exact hw
  | read v r => exact hw
  -- this and an event of its own relieve it, as a new interest does
  | deregister => exact absurd trivial hr
  | reregister i =>
    have hfail : ¬(e.reregister i l).1.isOk = true := hr
    show Deed.waits ((if (e.reregister i l).1.isOk = true then [.retuned i] else []) ++ story) = true
    rw [if_neg hfail]
    exact hw
  | accept event =>
    have hforeign : ¬e.wakes event = true := hr
    show Deed.waits ((if e.wakes event = true then [.woken] else []) ++ story) = true
    rw [if_neg hforeign]
    exact hw
  | write v r =>
    show Deed.waits ((if _ then [.waited] else []) ++ story) = true
    split
    · rfl
    · exact hw

omit [Pollable ι] in
/-- Who waits after a use has waited before, or was registered when a write had to wait. -/
theorem of_waits_deeds (hw : Deed.waits (u.deeds e l ++ story) = true) :
    u ≠ .deregister ∧ (Deed.waits story = true ∨ ∃ token, e.token = some token) := by
  cases u with
  | register => exact ⟨nofun, Or.inl hw⟩
  | registerAt token => exact ⟨nofun, Or.inl hw⟩
  | read v r => exact ⟨nofun, Or.inl hw⟩
  | deregister => cases hw
  | reregister i =>
    refine ⟨nofun, Or.inl ?_⟩
    by_cases hok : (e.reregister i l).1.isOk = true
    · simp [deeds, hok, Deed.waits] at hw
    · simpa [deeds, hok] using hw
  | accept event =>
    refine ⟨nofun, Or.inl ?_⟩
    by_cases hwakes : e.wakes event = true
    · simp [deeds, hwakes, Deed.waits] at hw
    · simpa [deeds, hwakes] using hw
  -- only a write can make it wait, and only while it is registered
  | write v r =>
    refine ⟨nofun, ?_⟩
    cases htoken : e.token with
    | some token => exact Or.inr ⟨token, rfl⟩
    | none => exact Or.inl (by simpa [deeds, htoken] using hw)

end Use

/-- A stream that goes takes no watch along but its own. -/
theorem tends_drop {e : Evented Socket} (hlodged : e.Lodged l)
    (hne : ∀ f, Pollable.descriptor e.inner = some f → l.system.poller.descriptor ≠ some f) :
    l.Spares (Pollable.descriptor e.inner) (e.drop l) ∧
      (e.drop l).system.poller = l.system.poller := by
  have hgone := Use.tends_deregister hlodged
  -- first it is deregistered, whether that works out or not, then the resource is closed
  have hreleased : l.Spares (Pollable.descriptor e.inner) (e.release l).2 ∧
      (e.release l).2.system.poller = l.system.poller ∧ (e.release l).1.inner = e.inner := by
    have hinner : (e.deregister l).2.1.inner = e.inner := by
      unfold deregister
      cases e.token <;> rfl
    unfold release
    rcases hr : e.deregister l with ⟨r, e', l'⟩
    rw [hr] at hgone hinner
    cases r with
    | ok u => exact ⟨hgone.spares, hgone.poller_eq, hinner⟩
    | error f =>
      exact ⟨hgone.spares.trans (.of_watched_eq rfl), hgone.poller_eq, hinner⟩
  obtain ⟨hspares, hpoller, hinner⟩ := hreleased
  unfold drop
  dsimp only
  refine ⟨hspares.trans ?_, hpoller⟩
  rw [hinner]
  exact Loop.spares_close _ fun f hf => hpoller ▸ hne f hf

end Evented

/-! ### All of them -/

namespace Rack

variable {s s' : Rack Socket} {m n k : Nat} {e : Evented Socket} {a : Act Socket}

/-- What happens elsewhere leaves the multiplexer in its place, and the watches of descriptors
that are somebody's; and nobody is made of the multiplexer. -/
def Attentive (s : Rack Socket) (a : Act Socket) : Prop :=
  s.Considerate a ∧
  (∀ n v i f, a = .bring n v i → Pollable.descriptor v = some f →
    s.loop.system.poller.descriptor ≠ some f) ∧
  ∀ l, a = .elsewhere l → l.system.poller = s.loop.system.poller ∧
    ∀ n d, s.descriptorAt n = some d → ∀ w ∈ s.loop.watched, w.descriptor = d → w ∈ l.watched

/-- Who is registered is watched, and nobody is the multiplexer; and who waits is registered. -/
structure Vigilant (s : Rack Socket) : Prop where
  watched : ∀ n e, s.place n = some e → e.Watched s.loop
  foreign : ∀ n d, s.descriptorAt n = some d → s.loop.system.poller.descriptor ≠ some d
  registered : ∀ n, Deed.waits (s.story n) = true → ∃ e token, s.place n = some e ∧
    e.token = some token

namespace Vigilant

/-- What is put in a place is as it should be, and the others are spared. -/
theorem put (hs : s.Vigilant) {o : Option (Evented Socket)} {story : List Deed} {l : Loop}
    (hpoller : l.system.poller = s.loop.system.poller) (ho : ∀ e, o = some e → e.Watched l)
    (hforeign : ∀ e d, o = some e → Pollable.descriptor e.inner = some d →
      s.loop.system.poller.descriptor ≠ some d)
    (hstory : Deed.waits story = true → ∃ e token, o = some e ∧ e.token = some token)
    (hothers : ∀ m d, m ≠ n → s.descriptorAt m = some d → s.loop.Watches (some d) →
      l.Watches (some d)) : (s.put n o story l).Vigilant where
  -- each clause is about one place: the one that has changed, or another
  watched m e he := by
    by_cases hm : m = n
    · subst hm
      rw [place_put_self] at he
      exact ho e he
    · rw [place_put_of_ne hm] at he
      intro token htoken
      have hbefore := hs.watched m e he token htoken
      obtain ⟨w, -, hwd⟩ := id hbefore
      have hd : s.descriptorAt m = some w.descriptor := (descriptorAt_of_place he).trans hwd
      rw [hwd] at hbefore ⊢
      exact hothers m _ hm hd hbefore
  foreign m d hd := by
    show l.system.poller.descriptor ≠ some d
    rw [hpoller]
    by_cases hm : m = n
    · subst hm
      rw [descriptorAt_of_place place_put_self] at hd
      obtain ⟨e, he, hd⟩ := Option.bind_eq_some_iff.mp hd
      exact hforeign e d he hd
    · rw [descriptorAt_of_place (place_put_of_ne hm)] at hd
      exact hs.foreign m d hd
  registered m hm := by
    by_cases hmn : m = n
    · subst hmn
      rw [story_put_self] at hm
      obtain ⟨e, token, he, ht⟩ := hstory hm
      exact ⟨e, token, place_put_self.trans he, ht⟩
    · rw [story_put_of_ne hmn] at hm
      obtain ⟨e, token, he, ht⟩ := hs.registered m hm
      exact ⟨e, token, (place_put_of_ne hmn).trans he, ht⟩

/-- Who is not registered does not wait. -/
theorem waits_eq_false (hs : s.Vigilant) (he : s.place n = some e) (hnone : e.token = none) :
    Deed.waits (s.story n) = false := by
  by_contra hwaits
  obtain ⟨e', token, he', htoken⟩ := hs.registered n (Bool.not_eq_false _ ▸ hwaits)
  cases he.symm.trans he'
  cases hnone.symm.trans htoken

/-- Whoever is not the one that is spared nothing is watched as before. -/
theorem others (hatt : s.Attuned) (he : s.place n = some e) {l : Loop}
    (hspares : s.loop.Spares (Pollable.descriptor e.inner) l) (hm : m ≠ n) {d : Nat}
    (hd : s.descriptorAt m = some d) (hw : s.loop.Watches (some d)) : l.Watches (some d) := by
  refine hw.of_spares hspares ?_
  rintro f ⟨⟩ hself
  exact hatt.descriptorAt_ne he hself hm hd

/-- Whoever waits after a use is registered after it. -/
theorem registered_run (hs : s.Vigilant) (he : s.place n = some e) {u : Evented.Use Socket}
    (hw : Deed.waits (u.deeds e s.loop ++ s.story n) = true) :
    ∃ token, (u.run e s.loop).1.token = some token := by
  obtain ⟨hu, hbefore⟩ := Evented.Use.of_waits_deeds hw
  have hheld : ∃ token, e.token = some token := by
    -- it was waiting before, or it has a token now
    rcases hbefore with hstory | hheld
    · obtain ⟨e', token, he', htoken⟩ := hs.registered n hstory
      cases he.symm.trans he'
      exact ⟨token, htoken⟩
    · exact hheld
  obtain ⟨token, htoken⟩ := hheld
  exact ⟨token, u.token_run hu htoken s.loop⟩

theorem use (hs : s.Vigilant) (hatt : s.Attuned) (ht : Tenancy s.holding s.loop)
    (he : s.place n = some e) {u : Evented.Use Socket} (hu : u.Keeps e) :
    (s.use n u).Vigilant := by
  have hlodged := lodged_of_tenancy ht he
  have htends := Evented.Use.tends_run hlodged hu
  have hleaves := Evented.Use.leaves_run (hatt.settled n e he) hatt.tidy hlodged hu
  rw [use_eq he]
  refine hs.put htends.poller_eq ?_ ?_ ?_ fun m d hm hd hw => others hatt he htends.spares hm hd hw
  · rintro e' ⟨⟩
    exact htends.watched (hs.watched n e he)
  · rintro e' d ⟨⟩ hd
    exact hs.foreign n d ((descriptorAt_of_place he).trans (hleaves.descriptor_eq.symm.trans hd))
  · intro hw
    obtain ⟨token, htoken⟩ := hs.registered_run he hw
    exact ⟨_, token, rfl, htoken⟩

theorem dismiss (hs : s.Vigilant) (hatt : s.Attuned) (ht : Tenancy s.holding s.loop)
    (he : s.place n = some e) : (s.dismiss n).Vigilant := by
  obtain ⟨hspares, hpoller⟩ := Evented.tends_drop (lodged_of_tenancy ht he)
    fun f hf => hs.foreign n f ((descriptorAt_of_place he).trans hf)
  rw [dismiss_eq he]
  refine hs.put hpoller nofun nofun nofun fun m d hm hd hw => ?_
  exact others hatt he hspares hm hd hw

theorem move (hs : s.Vigilant) (he : s.place m = some e) (n : Nat) : (s.move m n).Vigilant := by
  have hhollow : Pollable.descriptor e.moveOut.2.inner = none := Discreet.descriptor_hollow e.inner
  rw [move_eq he]
  -- what is left behind is registered nowhere and refers to nothing
  have hrest : (s.put m (some e.moveOut.2) (.parted :: s.story m) s.loop).Vigilant := by
    refine hs.put rfl ?_ ?_ nofun fun _ _ _ _ hw => hw
    · rintro e' ⟨⟩ token htoken
      cases htoken
    · rintro e' d ⟨⟩ hd
      cases hhollow.symm.trans hd
  refine hrest.put rfl ?_ ?_ ?_ fun _ _ _ _ hw => hw
  · rintro e' ⟨⟩
    exact hs.watched m e he
  · rintro e' d ⟨⟩ hd
    exact hs.foreign m d ((descriptorAt_of_place he).trans hd)
  · intro hw
    obtain ⟨e', token, he', htoken⟩ := hs.registered m hw
    cases he.symm.trans he'
    exact ⟨e, token, rfl, htoken⟩

/-- **Acts keep who is registered watched.** -/
theorem act (hs : s.Vigilant) (hatt : s.Attuned) (ht : Tenancy s.holding s.loop)
    (ha : s.Attentive a) : (s.act a).Vigilant := by
  obtain ⟨⟨hfits, -, -⟩, hbring, helse⟩ := ha
  cases a with
  | bring n v i =>
    refine hs.put rfl ?_ ?_ nofun fun _ _ _ _ hw => hw
    · rintro e ⟨⟩ token htoken
      cases htoken
    · rintro e d ⟨⟩ hd
      exact hbring n v i d rfl hd
  | use n u =>
    obtain ⟨e, he, hu⟩ := hfits
    exact hs.use hatt ht he hu
  | move m n =>
    obtain ⟨e, he⟩ := hfits.1
    exact hs.move he n
  | assign m n =>
    obtain ⟨e, he⟩ := hfits.1
    obtain ⟨old, hold⟩ := hfits.2
    rw [act_assign]
    by_cases hmn : m = n
    · rw [hmn, assign_self]
      exact hs
    -- whoever stands there goes first, and then it is a move
    · rw [assign_of_ne he hold hmn]
      have he' : (s.dismiss n).place m = some e := by
        rw [dismiss_eq hold, place_put_of_ne hmn]
        exact he
      exact (hs.dismiss hatt ht hold).move he' n
  | dismiss n =>
    obtain ⟨e, he⟩ := hfits
    exact hs.dismiss hatt ht he
  | elsewhere l =>
    obtain ⟨hpoller, hkept⟩ := helse l rfl
    refine ⟨fun n e he token htoken => ?_, fun n d hd => ?_, hs.registered⟩
    · obtain ⟨w, hw, hwd⟩ := hs.watched n e he token htoken
      exact ⟨w, hkept n _ ((descriptorAt_of_place he).trans hwd) w hw rfl, hwd⟩
    · show l.system.poller.descriptor ≠ some d
      rw [hpoller]
      exact hs.foreign n d hd

end Vigilant

namespace Reachable

/-- Who relies on watches is considerate. -/
theorem considerate (hs : Reachable Attentive s) : Reachable Considerate s := by
  induction hs with
  | start hs => exact .start hs
  | act a ha _ ih => exact ih.act a ha.1

theorem vigilant (hs : Reachable Attentive s) : s.Vigilant := by
  induction hs with
  | start hs => exact ⟨nofun, nofun, nofun⟩
  | act a ha hreach ih =>
    exact ih.act hreach.considerate.attuned hreach.considerate.tenancy ha

/-- Whoever is registered is watched under its token, with its interest in effect. -/
theorem exists_watch (hs : Reachable Attentive s) (he : s.place n = some e) {token : Token}
    (htoken : e.token = some token) : ∃ w ∈ s.loop.watched,
      Pollable.descriptor e.inner = some w.descriptor ∧ w.token = token ∧
        w.mask = e.effective.mask := by
  obtain ⟨w, hw, hwd⟩ := hs.vigilant.watched n e he token htoken
  obtain ⟨ht, hmask⟩ := (hs.considerate.attuned.settled n e he).watch token htoken w hw hwd
  exact ⟨w, hw, hwd, ht, hmask⟩

end Reachable

/-! ### Waiting -/

/-- Where a resource is after an act. -/
def Act.carry : Act ι → Nat → Nat
  | .move source target, n => if n = source then target else n
  | .assign source target, n => if n = source then target else n
  | _, n => n

/-- An act ends the waiting of what stands in a place: a use does, or it goes, or is replaced. -/
def Relieves (s : Rack Socket) (n : Nat) : Act Socket → Prop
  | .use m u => m = n ∧ ∃ e, s.place n = some e ∧ u.Relieves e s.loop
  | .assign source target => source ≠ target ∧ n = target
  | .dismiss m => m = n
  | _ => False

/-- Runs in which what stands in a place is not relieved, with the place where it is after each
act. -/
inductive Meanwhile (s : Rack Socket) (n : Nat) : Rack Socket → Nat → Prop
  | refl : Meanwhile s n s n
  | act {s' : Rack Socket} {k : Nat} (a : Act Socket) (ha : s'.Attentive a)
      (hr : ¬s'.Relieves k a) : Meanwhile s n s' k → Meanwhile s n (s'.act a) (a.carry k)

theorem Meanwhile.reachable (h : Meanwhile s n s' k) (hs : Reachable Attentive s) :
    Reachable Attentive s' := by
  induction h with
  | refl => exact hs
  | act a ha _ _ ih => exact ih.act a ha

/-- What stands in a place waits under a token. -/
structure Waits (s : Rack Socket) (n : Nat) (token : Token) : Prop where
  story : Deed.waits (s.story n) = true
  place : ∃ e, s.place n = some e ∧ e.token = some token

namespace Waits

variable {token : Token}

/-- A use that relieves nobody leaves its resource waiting. -/
theorem use (hw : s.Waits n token) (he : s.place n = some e) {u : Evented.Use Socket}
    (hr : ¬s.Relieves n (.use n u)) : (s.use n u).Waits n token := by
  obtain ⟨hstory, e', he', htoken⟩ := hw
  cases he.symm.trans he'
  have hquiet : ¬u.Relieves e s.loop := fun h => hr ⟨rfl, e, he, h⟩
  -- to be deregistered would relieve it
  have hu : u ≠ .deregister := by
    rintro rfl
    exact hquiet trivial
  rw [use_eq he]
  refine ⟨?_, _, place_put_self, u.token_run hu htoken s.loop⟩
  rw [story_put_self]
  exact Evented.Use.waits_deeds hstory hquiet

/-- A place that an act is not about stays as it is. -/
theorem put_of_ne (hw : s.Waits n token) {m : Nat} (hne : n ≠ m) {o : Option (Evented Socket)}
    {story : List Deed} {l : Loop} : (s.put m o story l).Waits n token := by
  obtain ⟨e, he, htoken⟩ := hw.place
  exact ⟨(congrArg Deed.waits (story_put_of_ne hne)).trans hw.story, e,
    (place_put_of_ne hne).trans he, htoken⟩

/-- **What waits goes on waiting until it is relieved**, wherever it is. -/
theorem act (hw : s.Waits n token) (ha : s.Fits a) (hr : ¬s.Relieves n a) :
    (s.act a).Waits (a.carry n) token := by
  obtain ⟨e, he, htoken⟩ := hw.place
  cases a with
  | bring m v i =>
    refine hw.put_of_ne ?_
    rintro rfl
    cases he.symm.trans ha
  | use m u =>
    rw [act_use]
    by_cases hmn : n = m
    · subst hmn
      exact hw.use he hr
    · obtain ⟨e', he', -⟩ := ha
      rw [use_eq he']
      exact hw.put_of_ne hmn
  | move m k =>
    obtain ⟨e', he'⟩ := ha.1
    have hnk : n ≠ k := by
      rintro rfl
      cases he.symm.trans ha.2
    rw [act_move, move_eq he']
    show Waits _ (if n = m then k else n) token
    by_cases hnm : n = m
    · subst hnm
      cases he.symm.trans he'
      rw [if_pos rfl]
      exact ⟨(congrArg Deed.waits story_put_self).trans hw.story, e, place_put_self, htoken⟩
    · rw [if_neg hnm]
      exact (hw.put_of_ne hnm).put_of_ne hnk
  | assign m k =>
    obtain ⟨e', he'⟩ := ha.1
    obtain ⟨old, hold⟩ := ha.2
    show Waits _ (if n = m then k else n) token
    by_cases hmk : m = k
    · subst hmk
      rw [act_assign, assign_self, ite_eq_right_iff.mpr Eq.symm]
      exact hw
    · have hnk : n ≠ k := fun h => hr ⟨hmk, h⟩
      rw [act_assign, assign_eq he' hold hmk]
      by_cases hnm : n = m
      · subst hnm
        cases he.symm.trans he'
        rw [if_pos rfl]
        exact ⟨(congrArg Deed.waits story_put_self).trans hw.story, e, place_put_self, htoken⟩
      · rw [if_neg hnm]
        exact (hw.put_of_ne hnm).put_of_ne hnk
  | dismiss m =>
    obtain ⟨e', he'⟩ := ha
    rw [act_dismiss, dismiss_eq he']
    exact hw.put_of_ne fun h => hr h.symm
  | elsewhere l => exact ⟨hw.story, e, he, htoken⟩

theorem meanwhile (hw : s.Waits n token) (h : Meanwhile s n s' k) : s'.Waits k token := by
  induction h with
  | refl => exact hw
  | act a ha hr _ ih => exact ih.act ha.1.1 hr

end Waits

/-! ### Streams -/

theorem Attentive.of_descriptors_eq {h : Host} (hd : h.descriptors = s.loop.host.descriptors) :
    s.Attentive (.elsewhere { s.loop with host := h }) := by
  have hwatched : Loop.watched { s.loop with host := h } = s.loop.watched := by
    unfold Loop.watched Host.watches Host.objectOf? Host.object?
    rw [hd]
  refine ⟨⟨trivial, (fun _ _ _ h => nomatch h), ?_⟩, (fun _ _ _ _ h => nomatch h), ?_⟩
  · rintro l ⟨⟩
    exact .of_descriptors_eq hd
  · rintro l ⟨⟩
    refine ⟨rfl, fun n d _ w hw _ => ?_⟩
    rw [hwatched]
    exact hw

theorem attentive_use (he : s.place n = some e) {u : Evented.Use Socket} (hu : u.Keeps e) :
    s.Attentive (.use n u) :=
  ⟨⟨⟨e, he, hu⟩, (fun _ _ _ h => nomatch h), (fun _ h => nomatch h)⟩,
    (fun _ _ _ _ h => nomatch h), (fun _ h => nomatch h)⟩

namespace Meanwhile

/-- What the host does for a stream and what the resource makes of it, one after the other. -/
theorem host_use (hrun : Meanwhile s n s' k) (he : s'.place m = some e) {h : Host}
    (hd : h.descriptors = s'.loop.host.descriptors) {u : Evented.Use Socket} (hu : u.Keeps e)
    (hr : ¬u.Relieves e { s'.loop with host := h }) : Meanwhile s n
      (s'.put m (some (u.run e { s'.loop with host := h }).1)
        (u.deeds e { s'.loop with host := h } ++ s'.story m)
        (u.run e { s'.loop with host := h }).2) k := by
  have huse : (s'.act (.elsewhere { s'.loop with host := h })).Attentive (.use m u) :=
    attentive_use (s := s'.act (.elsewhere { s'.loop with host := h })) he hu
  have hquiet : ¬(s'.act (.elsewhere { s'.loop with host := h })).Relieves k (.use m u) := by
    rintro ⟨rfl, e', he', hrelieves⟩
    cases he.symm.trans he'
    exact hr hrelieves
  -- in the run these are two acts: the host changes, and then the stream is used
  have hnext := (hrun.act _ (.of_descriptors_eq hd) (fun hfalse => hfalse)).act _ huse hquiet
  rw [act_use, use_eq (s := s'.act (.elsewhere { s'.loop with host := h })) he] at hnext
  exact hnext

/-- Sending relieves nobody. -/
theorem send (hrun : Meanwhile s n s' k) (m : Nat) (bytes : List UInt8) :
    Meanwhile s n (s'.send m bytes) k := by
  unfold Rack.send
  cases he : s'.place m with
  | none => exact hrun
  | some e =>
    exact hrun.host_use he (Socket.descriptors_write e.inner bytes s'.loop.host)
      (u := .write e.inner (e.inner.write bytes s'.loop.host).1) rfl (fun hfalse => hfalse)

/-- Nor does receiving. -/
theorem receive (hrun : Meanwhile s n s' k) (m most : Nat) :
    Meanwhile s n (s'.receive m most) k := by
  unfold Rack.receive
  cases he : s'.place m with
  | none => exact hrun
  | some e =>
    exact hrun.host_use he (Socket.descriptors_read e.inner most s'.loop.host)
      (u := .read e.inner (e.inner.read most s'.loop.host).1) rfl (fun hfalse => hfalse)

end Meanwhile

theorem send_eq (he : s.place n = some e) (bytes : List UInt8) :
    s.send n bytes = s.put n (some (e.write bytes s.loop).2.1)
      ((if e.token.isSome && Evented.Use.mustWait (e.write bytes s.loop).1 then [.waited] else [])
        ++ s.story n) (e.write bytes s.loop).2.2 := by
  unfold Rack.send
  rw [he]

/-- A stream that is registered when a write has to wait waits from then on. -/
theorem waits_send (he : s.place n = some e) {token : Token} (htoken : e.token = some token)
    {bytes : List UInt8} (hwait : Evented.Use.mustWait (e.write bytes s.loop).1 = true) :
    (s.send n bytes).Waits n token := by
  have hkept : (e.write bytes s.loop).2.1.token = some token :=
    Evented.Use.token_run (u := .write e.inner (e.inner.write bytes s.loop.host).1) nofun htoken
      { s.loop with host := (e.inner.write bytes s.loop.host).2 }
  rw [send_eq he]
  refine ⟨?_, _, place_put_self, hkept⟩
  rw [story_put_self, hwait, htoken]
  rfl

/-- Neither a write without a registration nor the registration after it is worth telling. -/
theorem story_enrol_send (he : s.place n = some e) (hnone : e.token = none) {bytes : List UInt8}
    {u : Evented.Use Socket} (hu : u = .register ∨ ∃ t, u = .registerAt t) :
    ((s.send n bytes).act (.use n u)).story n = s.story n := by
  -- to register tells nothing of writes, and an unregistered stream does not wait
  have hdeeds : ∀ e l, u.deeds e l = [] := by
    rcases hu with rfl | ⟨t, rfl⟩
    · exact fun _ _ => rfl
    · exact fun _ _ => rfl
  have hsend : (s.send n bytes).story n = s.story n := by
    rw [send_eq he, story_put_self, hnone]
    rfl
  have hplace : (s.send n bytes).place n = some (e.write bytes s.loop).2.1 := by
    rw [send_eq he, place_put_self]
  rw [act_use, use_eq hplace, story_put_self, hdeeds, List.nil_append, hsend]

namespace Reachable

/-- What waits is watched for room, and the next wait reports it once there is room. -/
theorem reported (hs : Reachable Attentive s) {token : Token} (hw : s.Waits n token) :
    ∃ e w, s.place n = some e ∧ e.token = some token ∧ w ∈ s.loop.watched ∧
      e.inner.descriptor = some w.descriptor ∧ w.token = token ∧ w.mask.meets .output = true ∧
      (s.loop.system.poller.source = .live →
        (s.loop.host.readiness e.inner.descriptor).meets .output = true →
        ∀ events most timeout,
          (s.loop.host.readySet s.loop.system.poller.descriptor).length ≤ Poller.asked most →
          ∃ event ∈ (s.loop.system.poller.wait events most timeout s.loop.host).2.1,
            e.wakes event = true) := by
  obtain ⟨e, he, htoken⟩ := hw.place
  obtain ⟨w, hmem, hwd, hwt, hmask⟩ := hs.exists_watch he htoken
  have hdesc : e.inner.descriptor = some w.descriptor := hwd
  -- it waits, so its interest in effect asks for room
  have hroom : w.mask.meets .output = true := by
    rw [hmask, Interest.meets_output_mask,
      (hs.considerate.attuned.settled n e he).effective_eq, if_pos hw.story,
      Interest.isWritable_union]
    exact Bool.or_true _
  refine ⟨e, w, he, htoken, hmem, hdesc, hwt, hroom, fun hlive hready events most timeout hmost => ?_⟩
  rw [hdesc] at hready
  obtain ⟨m, hm, hwritable⟩ := Host.exists_mem_readySet hmem hroom hready
  refine ⟨_, Poller.event_mem_wait hlive hm hmost events timeout, ?_⟩
  unfold Evented.wakes Evented.owns Poller.event
  rw [htoken, hwt, hwritable]
  simp

/-- **No wake-up is lost by a stream that was registered when it had to wait.**  Until it is
relieved it stays registered, wherever it is, and the multiplexer watches for room; once there is
room, the next wait reports an event that wakes it.  Where nothing was registered, nothing was
asked for: the registration that comes next watches for what the stream was made or retuned for,
and for nothing more. -/
theorem wakeup_spec (hs : Reachable Attentive s) (he : s.place n = some e) {bytes : List UInt8}
    (hwait : Evented.Use.mustWait (e.write bytes s.loop).1 = true) :
    (∀ token, e.token = some token → ∀ s' k, Meanwhile (s.send n bytes) n s' k →
      ∃ e' w, s'.place k = some e' ∧ e'.token = some token ∧ w ∈ s'.loop.watched ∧
        e'.inner.descriptor = some w.descriptor ∧ w.token = token ∧
        w.mask.meets .output = true ∧
        (s'.loop.system.poller.source = .live →
          (s'.loop.host.readiness e'.inner.descriptor).meets .output = true →
          ∀ events most timeout,
            (s'.loop.host.readySet s'.loop.system.poller.descriptor).length
              ≤ Poller.asked most →
            ∃ event ∈ (s'.loop.system.poller.wait events most timeout s'.loop.host).2.1,
              e'.wakes event = true)) ∧
    (e.token = none → ∀ u : Evented.Use Socket, u = .register ∨ (∃ t, u = .registerAt t) →
      ∀ e' token, ((s.send n bytes).act (.use n u)).place n = some e' → e'.token = some token →
        ∃ w ∈ ((s.send n bytes).act (.use n u)).loop.watched,
          e'.inner.descriptor = some w.descriptor ∧ w.token = token ∧
            w.mask = e.interest.mask) := by
  have hsent : Reachable Attentive (s.send n bytes) :=
    ((Meanwhile.refl (n := n)).send n bytes).reachable hs
  refine ⟨fun token htoken s' k hrun => ?_, fun hnone u hu e' token he' htoken => ?_⟩
  · exact (hrun.reachable hsent).reported ((waits_send he htoken hwait).meanwhile hrun)
  -- registered afterwards it is watched for its own interest only, whatever had to wait
  · have hplace : (s.send n bytes).place n = some (e.write bytes s.loop).2.1 := by
      rw [send_eq he, place_put_self]
    have hkeeps : u.Keeps (e.write bytes s.loop).2.1 := by
      rcases hu with rfl | ⟨t, rfl⟩
      · exact trivial
      · exact trivial
    have hreach := hsent.act (.use n u) (attentive_use hplace hkeeps)
    obtain ⟨w, hmem, hwd, hwt, hmask⟩ := hreach.exists_watch he' htoken
    refine ⟨w, hmem, hwd, hwt, ?_⟩
    rw [hmask, (hreach.considerate.attuned.settled n e' he').effective_eq,
      story_enrol_send he hnone hu, hs.vigilant.waits_eq_false he hnone,
      if_neg Bool.false_ne_true, ← (hs.considerate.attuned.settled n e he).base_eq]

/-! ### A run -/

/-- Two streams that are connected with each other.  Neither is registered. -/
def coupleRack : Rack Socket :=
  (pairRack.act (.bring 0 ⟨.unix, some 0⟩ .readable)).act (.bring 2 ⟨.unix, some 1⟩ .readable)

theorem coupleRack_reachable : Reachable Attentive coupleRack := by
  have hstart : Reachable Attentive pairRack := .start (h := pairHost) rfl
  have hpoller : pairRack.loop.system.poller.descriptor = some 2 := by decide +kernel
  have hfirst := hstart.act (.bring 0 ⟨.unix, some 0⟩ .readable) (by
    refine ⟨⟨rfl, (fun n v i h m d hd => nomatch hd), (fun _ h => nomatch h)⟩, ?_,
      (fun _ h => nomatch h)⟩
    rintro n v i f ⟨⟩ ⟨⟩
    rw [hpoller]
    decide)
  refine hfirst.act (.bring 2 ⟨.unix, some 1⟩ .readable) ⟨⟨rfl, ?_, (fun _ h => nomatch h)⟩, ?_,
    (fun _ h => nomatch h)⟩
  -- the two streams have different descriptors
  · rintro n v i ⟨⟩ m d hd
    by_cases hm : m = 0
    · subst hm
      cases hd
      decide
    · have hplace : (pairRack.act (.bring 0 ⟨.unix, some 0⟩ .readable)).place m = none :=
        place_put_of_ne hm
      rw [descriptorAt_of_place hplace] at hd
      cases hd
  · rintro n v i f ⟨⟩ ⟨⟩
    show pairRack.loop.system.poller.descriptor ≠ some 1
    rw [hpoller]
    decide

/-- The first stream is registered. -/
def enrolledRack : Rack Socket := coupleRack.act (.use 0 .register)

theorem enrolledRack_reachable : Reachable Attentive enrolledRack :=
  coupleRack_reachable.act (.use 0 .register) (attentive_use rfl trivial)

/-- A write to it has to wait; it moves; and the other one reads what it did not read before. -/
def resumedRack : Rack Socket := ((enrolledRack.send 0 [7]).act (.move 0 1)).receive 2 1

/-- Where it is now, the next wait tells it that there is room. -/
theorem wakeup_spec_resumedRack :
    ∃ e w, resumedRack.place 1 = some e ∧ e.interest = .readable ∧ e.token = some 0 ∧
      w ∈ resumedRack.loop.watched ∧ w.descriptor = 0 ∧ w.mask.meets .output = true ∧
      ∃ event ∈ (resumedRack.loop.system.poller.wait [] 1 0 resumedRack.loop.host).2.1,
        e.wakes event = true := by
  have hplace : enrolledRack.place 0
      = some ⟨⟨.unix, some 0⟩, some 0, .readable, false, false, false⟩ := by decide +kernel
  have hrun : Meanwhile (enrolledRack.send 0 [7]) 0 resumedRack 1 := by
    refine Meanwhile.receive (Meanwhile.act (.move 0 1) ?_ (fun h => h) .refl) 2 1
    have hsent : (enrolledRack.send 0 [7]).place 0
        = some ⟨⟨.unix, some 0⟩, some 0, .readable, true, false, false⟩ := by decide +kernel
    exact ⟨⟨⟨⟨_, hsent⟩, by decide +kernel⟩, (fun _ _ _ h => nomatch h), (fun _ h => nomatch h)⟩,
      (fun _ _ _ _ h => nomatch h), (fun _ h => nomatch h)⟩
  have hwait : Evented.Use.mustWait (Evented.write ⟨⟨.unix, some 0⟩, some 0, .readable, false,
      false, false⟩ [7] enrolledRack.loop).1 = true := by
    decide +kernel
  obtain ⟨hwatch, -⟩ := enrolledRack_reachable.wakeup_spec hplace hwait
  obtain ⟨e, w, he, htoken, hw, hd, -, hmask, hreport⟩ := hwatch 0 rfl resumedRack 1 hrun
  have hnow : resumedRack.place 1
      = some ⟨⟨.unix, some 0⟩, some 0, .readable, true, false, false⟩ := by decide +kernel
  cases he.symm.trans hnow
  refine ⟨_, w, hnow, rfl, rfl, hw, (Option.some.inj hd).symm, hmask, ?_⟩
  exact hreport (by decide +kernel) (by decide +kernel) [] 1 0 (by decide +kernel)

/-- **A write that has to wait before the stream is registered is not woken.**  The write has to
wait, the stream is registered, and nothing else happens until the other one reads.  There is room
then; but nobody watches for it, and a wait has nothing to report. -/
theorem not_woken_of_early_write :
    Reachable Attentive coupleRack ∧
    (∃ e, coupleRack.place 0 = some e ∧
      Evented.Use.mustWait (e.write [7] coupleRack.loop).1 = true) ∧
    ∃ s', Meanwhile (coupleRack.send 0 [7]) 0 s' 0 ∧
      (∃ e', s'.place 0 = some e' ∧ e'.token = some 0) ∧
      (s'.loop.host.readiness (some 0)).meets .output = true ∧
      (∀ w ∈ s'.loop.watched, w.token = 0 → w.mask.meets .output = false) ∧
      s'.loop.host.readySet s'.loop.system.poller.descriptor = [] := by
  have hsent : (coupleRack.send 0 [7]).place 0
      = some ⟨⟨.unix, some 0⟩, none, .readable, false, false, false⟩ := by decide +kernel
  have hnow : (((coupleRack.send 0 [7]).act (.use 0 .register)).receive 2 1).place 0
      = some ⟨⟨.unix, some 0⟩, some 0, .readable, false, false, false⟩ := by decide +kernel
  refine ⟨coupleRack_reachable, ⟨_, rfl, by decide +kernel⟩, _, ?_, ⟨_, hnow, rfl⟩,
    by decide +kernel, by decide +kernel, by decide +kernel⟩
  -- it registers and the other side reads: nothing of that relieves it
  refine Meanwhile.receive (Meanwhile.act (.use 0 .register) ?_ ?_ .refl) 2 1
  · exact attentive_use hsent trivial
  · rintro ⟨-, e', -, hfalse⟩
    exact hfalse

end Reachable
end Rack
end EventLoop

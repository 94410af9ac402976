import EventLoop.Proofs.Evented.Rack
import EventLoop.Proofs.Registration.Upkeep

/-!
# The interest in effect

What a resource is to be woken for is known in three places: the resource has
the interest it was given and whether a write asked for more, the table has the
interest of the registration, and the multiplexer has a mask.  The operations
change them one after the other, and the multiplexer may refuse each time.

As far as the multiplexer watches the descriptor of a registered resource at all,
it does so under the token of the resource and with the mask of its interest in
effect.  And that is the interest it was given last, with writable readiness on
top from a write that has to wait until an event reports room.

## Main definitions

* `Discreet` — resources that leave the watches of others alone.
* `Evented.Settled` — watch, interest and story of one resource agree.
* `Rack.Undisturbed` — what may happen elsewhere; `Rack.Considerate`, what acts may do.
* `Rack.Attuned` — the invariant.
* `Rack.send`, `Rack.receive` — what a stream does in its place.

## Main results

* `Evented.Use.leaves_run` — a use keeps its resource settled, and touches no watch but
  its own.
* `Rack.Attuned.act` — **acts keep everything settled.**
* `Rack.Reachable.send`, `Rack.Reachable.receive` — what streams do is among the acts.
* `Rack.Reachable.interest_spec` — watch, interest and story agree in every reachable
  state.
-/

namespace EventLoop

variable {ι κ : Type}

/-! ### Resources and watches -/

/-- What is left of a resource that moved away has no descriptor, and a resource that goes adds
no watch. -/
class Discreet (ι : Type) [Pollable ι] : Prop where
  descriptor_hollow (v : ι) : Pollable.descriptor (Pollable.hollow v) = none
  shrinks_close (v : ι) (l : Loop) : l.Shrinks { l with host := Pollable.close v l.host }

instance : Discreet Notifier where
  descriptor_hollow _ := rfl
  shrinks_close v l := l.shrinks_close v.descriptor

instance : Discreet Socket where
  descriptor_hollow _ := rfl
  shrinks_close v l := l.shrinks_close v.descriptor

instance [Pollable ι] [Pollable κ] [Discreet ι] [Discreet κ] : Discreet (ι ⊕ κ) where
  descriptor_hollow
    | .inl v => Discreet.descriptor_hollow v
    | .inr v => Discreet.descriptor_hollow v
  shrinks_close
    | .inl v => Discreet.shrinks_close v
    | .inr v => Discreet.shrinks_close v

namespace Socket

/-- To send is not to open or close anything. -/
theorem descriptors_write (s : Socket) (bytes : List UInt8) (h : Host) :
    (s.write bytes h).2.descriptors = h.descriptors := by
  have hcalm : h.calm.descriptors = h.descriptors := rfl
  rw [write_eq]
  split
  · next n h' hsent =>
    unfold Host.send at hsent
    grind [Host.modifyEnd]
  · rfl

/-- Nor is to receive. -/
theorem descriptors_read (s : Socket) (most : Nat) (h : Host) :
    (s.read most h).2.descriptors = h.descriptors := by
  have hcalm : h.calm.descriptors = h.descriptors := rfl
  rw [read_eq]
  unfold Host.receive
  grind [Host.modifyEnd]

end Socket

namespace Evented

variable [Pollable ι] {e e' : Evented ι} {story : List Deed} {l l' : Loop}

omit [Pollable ι] in
theorem shrinks_deregister (e : Evented ι) (l : Loop) : l.Shrinks (e.deregister l).2.2 := by
  unfold deregister
  cases e.token with
  | none => exact .refl l
  | some token => exact Loop.shrinks_deregister l token

/-- A resource that goes takes watches away only. -/
theorem shrinks_drop [Discreet ι] (e : Evented ι) (l : Loop) : l.Shrinks (e.drop l) := by
  have hgone := e.shrinks_deregister l
  have hreleased : l.Shrinks (e.release l).2 := by
    unfold release
    rcases hr : e.deregister l with ⟨r, e', l'⟩
    rw [hr] at hgone
    cases r with
    | ok u => exact hgone
    | error f => exact hgone.trans (.of_object?_eq rfl fun _ => rfl)
  exact hreleased.trans (Discreet.shrinks_close _ _)

/-- Watch, interest and story of a resource agree. -/
structure Settled (e : Evented ι) (story : List Deed) (l : Loop) : Prop where
  /-- Its interest is the one it was given last. -/
  base_eq : e.interest = Deed.base story
  /-- A write has asked for more if it had to wait, and that was more. -/
  armed_eq : e.armed = (Deed.waits story && !e.interest.isWritable)
  /-- Nothing is asked for while it is not registered. -/
  idle : e.token = none → e.armed = false
  /-- It is watched under its token, with the interest in effect. -/
  watch : ∀ token, e.token = some token → ∀ w ∈ l.watched,
    Pollable.descriptor e.inner = some w.descriptor →
      w.token = token ∧ w.mask = e.effective.mask

namespace Settled

/-- The interest in effect is the one given last, and more while a write waits. -/
theorem effective_eq (h : e.Settled story l) : e.effective
    = if Deed.waits story then (Deed.base story).union .writable else Deed.base story := by
  unfold effective
  rw [h.armed_eq, h.base_eq]
  cases Deed.waits story with
  | false => rfl
  | true => cases Deed.base story <;> rfl

/-- Fewer watches do no harm. -/
theorem of_watched (h : e.Settled story l) (hl : ∀ w ∈ l'.watched,
    Pollable.descriptor e.inner = some w.descriptor → w ∈ l.watched) : e.Settled story l' where
  base_eq := h.base_eq
  armed_eq := h.armed_eq
  idle := h.idle
  watch token ht w hw hd := h.watch token ht w (hl w hw hd) hd

/-- Latches do not matter, nor does the resource but for its descriptor. -/
theorem of_setting (h : e.Settled story l) {v : ι}
    (hv : Pollable.descriptor v = Pollable.descriptor e.inner)
    (hsame : SameSetting { e with inner := v } e') : e'.Settled story l where
  base_eq := hsame.interest_eq.trans h.base_eq
  armed_eq := by
    rw [hsame.armed_eq, hsame.interest_eq]
    exact h.armed_eq
  idle ht := hsame.armed_eq.trans (h.idle (hsame.token_eq.symm.trans ht))
  watch token ht w hw hd := by
    rw [hsame.inner_eq] at hd
    rw [hsame.effective_eq]
    exact h.watch token (hsame.token_eq.symm.trans ht) w hw (hv.symm.trans hd)

/-- Nothing can be wrong with the watch of what is not registered. -/
theorem of_unregistered (ht : e.token = none) (hb : e.interest = Deed.base story)
    (hw : Deed.waits story = false) (ha : e.armed = false) : e.Settled story l where
  base_eq := hb
  armed_eq := by rw [ha, hw, Bool.false_and]
  idle _ := ha
  watch token h := by
    rw [ht] at h
    cases h

/-- An event finds nothing to take back if no write has asked for more. -/
theorem woken (h : e.Settled story l) (ha : e.armed = false) : e.Settled (.woken :: story) l where
  base_eq := h.base_eq
  armed_eq := ha
  idle := h.idle
  watch := h.watch

/-- A write that has to wait asks for nothing if writable readiness is waited for already. -/
theorem waited (h : e.Settled story l) (heff : e.effective.isWritable = true) :
    e.Settled (.waited :: story) l where
  base_eq := h.base_eq
  armed_eq := by
    show e.armed = !e.interest.isWritable
    unfold effective at heff
    cases ha : e.armed with
    | false =>
      rw [ha] at heff
      rw [show e.interest.isWritable = true from heff]
      rfl
    | true =>
      have hnot := h.armed_eq
      rw [ha] at hnot
      exact (Bool.and_eq_true_iff.mp hnot.symm).2.symm
  idle := h.idle
  watch := h.watch

end Settled

/-- A resource that is registered is in the table. -/
def Lodged (e : Evented ι) (l : Loop) : Prop :=
  ∀ token, e.token = some token → l.lodged token = some (Pollable.descriptor e.inner)

/-- What a use leaves: the resource is settled, the loop tidy, and the watches of other
descriptors are as they were. -/
structure Use.Leaves (e : Evented ι) (l : Loop) (e' : Evented ι) (story : List Deed) (l' : Loop) :
    Prop where
  settled : e'.Settled story l'
  tidy : l'.Tidy
  others : ∀ w ∈ l'.watched, Pollable.descriptor e.inner ≠ some w.descriptor → w ∈ l.watched
  descriptor_eq : Pollable.descriptor e'.inner = Pollable.descriptor e.inner

namespace Use

variable {token : Token}

/-- Nothing has happened to the watches. -/
theorem Leaves.of_shrinks (hs : e'.Settled story l') (ht : l.Tidy) (hl : l.Shrinks l')
    (hd : Pollable.descriptor e'.inner = Pollable.descriptor e.inner) :
    Leaves e l e' story l' :=
  ⟨hs, hl.tidy ht, fun w hw _ => hl.watched w hw, hd⟩

theorem leaves_registerAt (hs : e.Settled story l) (ht : l.Tidy) (token : Token) :
    Leaves e l (e.registerAt token l).2.1 story (e.registerAt token l).2.2 := by
  unfold Evented.registerAt
  cases htoken : e.token with
  | some t => exact .of_shrinks hs ht (.refl l) rfl
  | none =>
    dsimp only
    rcases hr : l.registerAt (Pollable.descriptor e.inner) token e.interest with ⟨r, l'⟩
    cases r with
    | error f =>
      have hl := Loop.shrinks_registerAt_error hr
      exact .of_shrinks (hs.of_watched fun w hw _ => hl.watched w hw) ht hl rfl
    | ok u =>
      obtain ⟨d, hd, hnot, hwatched, htidy⟩ := Loop.watched_registerAt_ok hr
      have hidle := hs.idle htoken
      refine ⟨⟨hs.base_eq, hs.armed_eq, fun h => hidle, ?_⟩, htidy ht, ?_, rfl⟩
      · -- the descriptor was not watched before, so only the new watch is its own
        intro t htok w hw hwd
        cases htok
        rw [hwatched] at hw
        rcases List.mem_append.mp hw with hold | hnew
        · have hdw : d = w.descriptor := Option.some.inj (hd.symm.trans hwd)
          exact absurd (List.mem_map.mpr ⟨w, hold, hdw.symm⟩) hnot
        · rw [List.mem_singleton] at hnew
          rw [hnew]
          refine ⟨rfl, ?_⟩
          show e.interest.mask = (if e.armed then _ else e.interest).mask
          rw [hidle]
          rfl
      · intro w hw hne
        rw [hwatched] at hw
        rcases List.mem_append.mp hw with hold | hnew
        · exact hold
        · rw [List.mem_singleton] at hnew
          rw [hnew, hd] at hne
          exact absurd rfl hne

/-- The loop has complied with a change of interest. -/
theorem Leaves.of_retuned (ht : l.Tidy) (hlodged : l.lodged token = some (Pollable.descriptor e.inner))
    (hr : l.reregister token e'.effective = (.ok (), l')) (htoken : e'.token = some token)
    (hd : Pollable.descriptor e'.inner = Pollable.descriptor e.inner)
    (hb : e'.interest = Deed.base story)
    (ha : e'.armed = (Deed.waits story && !e'.interest.isWritable)) :
    Leaves e l e' story l' := by
  obtain ⟨hwatched, htidy⟩ := Loop.watched_reregister_ok hlodged hr
  refine ⟨⟨hb, ha, fun h => ?_, fun t htok w hw hwd => ?_⟩, htidy ht,
    fun w hw => (hwatched w hw).2, hd⟩
  · rw [htoken] at h
    cases h
  · cases htoken.symm.trans htok
    exact (hwatched w hw).1 (hd.symm.trans hwd)

theorem leaves_reregister (hs : e.Settled story l) (ht : l.Tidy) (hlodged : e.Lodged l)
    (i : Interest) : Leaves e l (e.reregister i l).2.1
      ((if (e.reregister i l).1.isOk then [.retuned i] else []) ++ story) (e.reregister i l).2.2 := by
  rcases e.reregister_cases i l with ⟨hnone, h⟩ | ⟨token, htoken, ⟨l', hr, h⟩ | ⟨f, -, h⟩⟩
  · rw [h]
    exact .of_shrinks (.of_unregistered hnone rfl rfl rfl) ht (.refl l) rfl
  · rw [h]
    exact .of_retuned ht (hlodged token htoken) hr htoken rfl rfl rfl
  · rw [h]
    exact .of_shrinks hs ht (.refl l) rfl

theorem leaves_deregister (hs : e.Settled story l) (ht : l.Tidy) :
    Leaves e l (e.deregister l).2.1 (.parted :: story) (e.deregister l).2.2 := by
  have hshrinks := e.shrinks_deregister l
  have hb := hs.base_eq
  unfold Evented.deregister at hshrinks ⊢
  cases htoken : e.token with
  | none => exact .of_shrinks (.of_unregistered htoken hb rfl (hs.idle htoken)) ht (.refl l) rfl
  | some token =>
    rw [htoken] at hshrinks
    exact .of_shrinks (.of_unregistered rfl hb rfl rfl) ht hshrinks rfl

theorem leaves_accept (hs : e.Settled story l) (ht : l.Tidy) (hlodged : e.Lodged l)
    (event : Event) : Leaves e l (e.accept event l).2.1
      ((if e.wakes event then [.woken] else []) ++ story) (e.accept event l).2.2 := by
  rcases e.accept_cases event l with ⟨hl, hsame, hwakes⟩ | ⟨hwakes, htoken, hsame, hr⟩
  · rw [hl]
    refine .of_shrinks ?_ ht (.refl l) (congrArg _ hsame.inner_eq)
    have hsame' := hs.of_setting rfl hsame
    cases hw : e.wakes event with
    | false => exact hsame'
    | true => exact hsame'.woken (hsame.armed_eq.trans (hwakes hw))
  · rw [if_pos hwakes]
    have hbase : (e.accept event l).2.1.interest = Deed.base (.woken :: story) :=
      hsame.interest_eq.trans hs.base_eq
    have heff : (e.accept event l).2.1.effective = e.interest := hsame.effective_eq
    have hdesc : Pollable.descriptor (e.accept event l).2.1.inner = Pollable.descriptor e.inner :=
      congrArg _ hsame.inner_eq
    have htok : (e.accept event l).2.1.token = some event.token := hsame.token_eq.trans htoken
    rcases hr with hr | ⟨f, hr, hl⟩
    · rw [← heff] at hr
      exact .of_retuned ht (hlodged _ htoken) hr htok hdesc hbase hsame.armed_eq
    · -- the multiplexer has refused, so it does not watch the descriptor
      obtain ⟨hnot, -⟩ := Loop.unwatched_of_reregister_error (hlodged _ htoken) ht hr
      have hkept : l.Shrinks (e.accept event l).2.2 := by
        rw [hl]
        exact .of_object?_eq rfl fun _ => rfl
      refine .of_shrinks ⟨hbase, hsame.armed_eq, fun _ => hsame.armed_eq,
        fun t _ w hw hwd => ?_⟩ ht hkept hdesc
      exact absurd (hdesc.symm.trans hwd) (hnot w (hkept.watched w hw))

theorem leaves_read (hs : e.Settled story l) (ht : l.Tidy) {v : ι}
    (hv : Pollable.descriptor v = Pollable.descriptor e.inner) (r : Except Failure (List UInt8)) :
    Leaves e l (({ e with inner := v } : Evented ι).afterRead r) story l := by
  have hsame := sameSetting_afterRead { e with inner := v } r
  exact .of_shrinks (hs.of_setting hv hsame) ht (.refl l) ((congrArg _ hsame.inner_eq).trans hv)

theorem leaves_write (hs : e.Settled story l) (ht : l.Tidy) (hlodged : e.Lodged l) {v : ι}
    (hv : Pollable.descriptor v = Pollable.descriptor e.inner) (r : Except Failure Nat) :
    Leaves e l (({ e with inner := v } : Evented ι).afterWrite r l).2.1
      ((if e.token.isSome && mustWait (({ e with inner := v } : Evented ι).afterWrite r l).1
        then [.waited] else []) ++ story)
      (({ e with inner := v } : Evented ι).afterWrite r l).2.2 := by
  rcases afterWrite_cases { e with inner := v } r l with ⟨hl, hsame, hmust⟩ |
    ⟨token, htoken, heff, ⟨hr, hsame, hmust⟩ | ⟨g, hr, hl, hsame, hg⟩⟩
  · -- nothing was asked for: nobody waits, or writable readiness is waited for already
    rw [hl]
    refine .of_shrinks ?_ ht (.refl l) ((congrArg _ hsame.inner_eq).trans hv)
    have hsame' := hs.of_setting hv hsame
    split
    · next hlog =>
      obtain ⟨hsome, hwait⟩ := Bool.and_eq_true_iff.mp hlog
      rcases hmust hwait with hnone | heff
      · rw [show e.token = none from hnone] at hsome
        cases hsome
      · refine hsame'.waited ?_
        rw [hsame.effective_eq]
        exact heff
    · exact hsame'
  · -- the loop has complied, so the write waits from now on
    have hlog : (e.token.isSome && mustWait (({ e with inner := v } : Evented ι).afterWrite r l).1)
        = true := by
      rw [hmust, show e.token = some token from htoken]
      rfl
    rw [if_pos hlog]
    have hnot : e.interest.isWritable = false := by
      unfold effective at heff
      dsimp only at heff
      split at heff
      · rw [Interest.isWritable_union, Bool.or_eq_false_iff] at heff
        exact heff.1
      · exact heff
    refine .of_retuned ht (hlodged token htoken) ?_ (hsame.token_eq.trans htoken)
      ((congrArg _ hsame.inner_eq).trans hv) (hsame.interest_eq.trans hs.base_eq) ?_
    · rw [hsame.effective_eq]
      exact hr
    · rw [hsame.armed_eq, hsame.interest_eq]
      show true = !e.interest.isWritable
      rw [hnot]
      rfl
  · -- the answer is the failure of the multiplexer, which is not to be waited out
    obtain ⟨-, hblock⟩ := Loop.unwatched_of_reregister_error
      (show l.lodged token = some _ from hlodged token htoken) ht hr
    have hlog : (e.token.isSome && mustWait (({ e with inner := v } : Evented ι).afterWrite r l).1)
        = false := by
      rw [hg, mustWait, hblock, Bool.and_false]
    rw [if_neg (Bool.eq_false_iff.mp hlog), hl]
    exact .of_shrinks (hs.of_setting hv hsame) ht (.refl l) ((congrArg _ hsame.inner_eq).trans hv)

/-- **A use keeps its resource settled**, and touches no watch but its own. -/
theorem leaves_run (hs : e.Settled story l) (ht : l.Tidy) (hlodged : e.Lodged l) {u : Use ι}
    (hu : u.Keeps e) : Leaves e l (u.run e l).1 (u.deeds e l ++ story) (u.run e l).2 := by
  cases u with
  | register =>
    show Leaves e l (e.register l).2.1 story (e.register l).2.2
    rw [register_eq]
    exact leaves_registerAt hs ht _
  | registerAt token => exact leaves_registerAt hs ht token
  | reregister i => exact leaves_reregister hs ht hlodged i
  | deregister => exact leaves_deregister hs ht
  | accept event => exact leaves_accept hs ht hlodged event
  | read v r => exact leaves_read hs ht hu r
  | write v r => exact leaves_write hs ht hlodged hu r

end Use
end Evented

/-! ### All of them -/

namespace Rack

variable [Pollable ι] {s : Rack ι} {m n : Nat} {e : Evented ι}

/-- The descriptor of what stands in a place. -/
def descriptorAt (s : Rack ι) (n : Nat) : Option Nat :=
  (s.place n).bind fun e => Pollable.descriptor e.inner

/-- What happens elsewhere leaves the table alone as far as tokens are held, and adds no watch
of a descriptor that is somebody's. -/
structure Undisturbed (s : Rack ι) (l : Loop) : Prop where
  tidy : s.loop.Tidy → l.Tidy
  lodged_eq : ∀ n token d, s.holding n = some (token, d) → l.lodged token = s.loop.lodged token
  watched : ∀ n d, s.descriptorAt n = some d → ∀ w ∈ l.watched, w.descriptor = d →
    w ∈ s.loop.watched

/-- A resource that is made has a descriptor of its own, and what happens elsewhere leaves the
rack undisturbed. -/
def Considerate (s : Rack ι) (a : Act ι) : Prop :=
  s.Fits a ∧
  (∀ n v i, a = .bring n v i → ∀ m d, s.descriptorAt m = some d →
    Pollable.descriptor v ≠ some d) ∧
  ∀ l, a = .elsewhere l → s.Undisturbed l

/-- Every resource is settled, and no two of them have the same descriptor. -/
structure Attuned (s : Rack ι) : Prop where
  tidy : s.loop.Tidy
  settled : ∀ n e, s.place n = some e → e.Settled (s.story n) s.loop
  apart : ∀ m n d, s.descriptorAt m = some d → s.descriptorAt n = some d → m = n

theorem descriptorAt_of_place {o : Option (Evented ι)} (h : s.place n = o) :
    s.descriptorAt n = o.bind fun e => Pollable.descriptor e.inner := by rw [descriptorAt, h]

/-- Whoever holds a token is in the table under it. -/
theorem lodged_of_tenancy (ht : Tenancy s.holding s.loop) (he : s.place n = some e) :
    e.Lodged s.loop := by
  intro token htoken
  refine ht.held n token _ ?_
  rw [holding_of_place he]
  exact Evented.holding_eq_some_iff.mpr ⟨htoken, rfl⟩

/-- No act hands out a token twice. -/
theorem tenancy_act {a : Act ι} (ht : Tenancy s.holding s.loop) (ha : s.Considerate a) :
    Tenancy (s.act a).holding (s.act a).loop := by
  obtain ⟨hfits, -, helse⟩ := ha
  by_cases hl : ∀ l, a ≠ .elsewhere l
  · exact (shift_act hfits hl).tenancy ht
  · push Not at hl
    obtain ⟨l, rfl⟩ := hl
    have hkept := (helse l rfl).lodged_eq
    exact ⟨fun n token d h => (hkept n token d h).trans (ht.held n token d h), ht.unique⟩

namespace Attuned

/-- Nobody else has the descriptor of a resource. -/
theorem descriptorAt_ne (hs : s.Attuned) (he : s.place n = some e) {d : Nat}
    (hd : Pollable.descriptor e.inner = some d) (hm : m ≠ n) : s.descriptorAt m ≠ some d :=
  fun h => hm (hs.apart m n d h ((descriptorAt_of_place he).trans hd))

/-- What is put in a place is settled and has a descriptor of its own, and the watches of the
others are not touched. -/
theorem put (hs : s.Attuned) {o : Option (Evented ι)} {story : List Deed} {l : Loop}
    (ht : l.Tidy) (ho : ∀ e, o = some e → e.Settled story l)
    (hwatched : ∀ m d, m ≠ n → s.descriptorAt m = some d → ∀ w ∈ l.watched, w.descriptor = d →
      w ∈ s.loop.watched)
    (hown : ∀ e d, o = some e → Pollable.descriptor e.inner = some d →
      ∀ m, m ≠ n → s.descriptorAt m ≠ some d) : (s.put n o story l).Attuned where
  tidy := ht
  settled m e he := by
    by_cases hm : m = n
    · subst hm
      rw [place_put_self] at he
      rw [story_put_self]
      exact ho e he
    · rw [place_put_of_ne hm] at he
      rw [story_put_of_ne hm]
      exact (hs.settled m e he).of_watched fun w hw hd =>
        hwatched m _ hm ((descriptorAt_of_place he).trans hd) w hw rfl
  apart := by
    -- a descriptor in the place filled is nobody else's
    have hself : ∀ d, (s.put n o story l).descriptorAt n = some d →
        ∀ m, m ≠ n → s.descriptorAt m ≠ some d := by
      intro d hd
      rw [descriptorAt_of_place place_put_self] at hd
      obtain ⟨e, he, hd⟩ := Option.bind_eq_some_iff.mp hd
      exact hown e d he hd
    have hother : ∀ m, m ≠ n → (s.put n o story l).descriptorAt m = s.descriptorAt m :=
      fun m hm => descriptorAt_of_place (place_put_of_ne hm)
    intro j k d hj hk
    by_cases hjn : j = n
    · by_cases hkn : k = n
      · rw [hjn, hkn]
      · rw [hjn] at hj
        rw [hother k hkn] at hk
        exact absurd hk (hself d hj k hkn)
    · rw [hother j hjn] at hj
      by_cases hkn : k = n
      · rw [hkn] at hk
        exact absurd hj (hself d hk j hjn)
      · rw [hother k hkn] at hk
        exact hs.apart j k d hj hk

theorem use (hs : s.Attuned) (ht : Tenancy s.holding s.loop) (he : s.place n = some e)
    {u : Evented.Use ι} (hu : u.Keeps e) : (s.use n u).Attuned := by
  have hleaves := Evented.Use.leaves_run (hs.settled n e he) hs.tidy (lodged_of_tenancy ht he) hu
  rw [use_eq he]
  refine hs.put hleaves.tidy ?_ (fun m d hm hd w hw hwd => ?_) ?_
  · rintro e' ⟨⟩
    exact hleaves.settled
  · -- what another resource has is not the descriptor of this one
    refine hleaves.others w hw fun hself => ?_
    exact hs.descriptorAt_ne he hself hm (hwd ▸ hd)
  · rintro e' d ⟨⟩ hd m hm
    exact hs.descriptorAt_ne he (hleaves.descriptor_eq.symm.trans hd) hm

variable [Discreet ι]

theorem dismiss (hs : s.Attuned) (he : s.place n = some e) : (s.dismiss n).Attuned := by
  have hshrinks := e.shrinks_drop s.loop
  rw [dismiss_eq he]
  exact hs.put (hshrinks.tidy hs.tidy) (fun _ h => nomatch h)
    (fun _ _ _ _ w hw _ => hshrinks.watched w hw) (fun _ _ h => nomatch h)

theorem move (hs : s.Attuned) (he : s.place m = some e) (n : Nat) : (s.move m n).Attuned := by
  have hsettled := hs.settled m e he
  have hhollow : Pollable.descriptor e.moveOut.2.inner = none := Discreet.descriptor_hollow e.inner
  rw [move_eq he]
  -- what is left has no descriptor, so the descriptor is free for the new place
  have hrest : (s.put m (some e.moveOut.2) (.parted :: s.story m) s.loop).Attuned := by
    refine hs.put hs.tidy ?_ (fun _ _ _ _ w hw _ => hw) ?_
    · rintro e' ⟨⟩
      exact .of_unregistered rfl hsettled.base_eq rfl rfl
    · rintro e' d ⟨⟩ hd
      rw [hhollow] at hd
      cases hd
  refine hrest.put hs.tidy ?_ (fun _ _ _ _ w hw _ => hw) ?_
  · rintro e' ⟨⟩
    exact hsettled
  · rintro e' d ⟨⟩ hd k hk
    by_cases hkm : k = m
    · rw [hkm, descriptorAt_of_place place_put_self, Option.bind_some, hhollow]
      exact Option.some_ne_none d |>.symm
    · rw [descriptorAt_of_place (place_put_of_ne hkm)]
      exact hs.descriptorAt_ne he hd hkm

/-- **Acts keep everything settled.** -/
theorem act (hs : s.Attuned) (ht : Tenancy s.holding s.loop) {a : Act ι}
    (ha : s.Considerate a) : (s.act a).Attuned := by
  obtain ⟨hfits, hbring, helse⟩ := ha
  cases a with
  | bring n v i =>
    refine hs.put hs.tidy ?_ (fun _ _ _ _ w hw _ => hw) ?_
    · rintro e ⟨⟩
      exact .of_unregistered rfl rfl rfl rfl
    · rintro e d ⟨⟩ hd m - hm
      exact hbring n v i rfl m d hm hd
  | use n u =>
    obtain ⟨e, he, hu⟩ := hfits
    exact hs.use ht he hu
  | move m n =>
    obtain ⟨e, he⟩ := hfits.1
    exact hs.move he n
  | assign m n =>
    obtain ⟨e, he⟩ := hfits.1
    obtain ⟨old, hold⟩ := hfits.2
    rw [act_assign]
    by_cases hmn : m = n
    · rw [hmn, assign_self]
      exact hs
    · rw [assign_of_ne he hold hmn]
      have he' : (s.dismiss n).place m = some e := by
        rw [dismiss_eq hold, place_put_of_ne hmn]
        exact he
      exact (hs.dismiss hold).move he' n
  | dismiss n =>
    obtain ⟨e, he⟩ := hfits
    exact hs.dismiss he
  | elsewhere l =>
    have hl := helse l rfl
    refine ⟨hl.tidy hs.tidy, fun n e he => ?_, hs.apart⟩
    exact (hs.settled n e he).of_watched fun w hw hd =>
      hl.watched n _ ((descriptorAt_of_place he).trans hd) w hw rfl

end Attuned

namespace Reachable

theorem tenancy (hs : Reachable Considerate s) : Tenancy s.holding s.loop := by
  induction hs with
  | start hs => exact ⟨(fun n token d h => nomatch h), (fun m n token d d' h => nomatch h)⟩
  | act a ha _ ih => exact tenancy_act ih ha

theorem attuned [Discreet ι] (hs : Reachable Considerate s) : s.Attuned := by
  induction hs with
  | start hs =>
    refine ⟨?_, (fun n e h => nomatch h), (fun m n d h => nomatch h)⟩
    obtain ⟨-, p, bell, hp, -, hne, hbell, ho⟩ := System.init_ok hs
    intro w hw
    unfold Loop.watched at hw
    dsimp only at hw ⊢
    rw [hp] at hw ⊢
    rw [Host.watches_eq ho, List.mem_singleton] at hw
    rw [hw]
    exact ⟨fun h => hne (Option.some.inj h), hbell⟩
  | act a ha hreach ih => exact ih.act hreach.tenancy ha

end Reachable

/-! ### Streams -/

/-- Bytes are sent through the stream in a place. -/
def send (s : Rack Socket) (n : Nat) (bytes : List UInt8) : Rack Socket :=
  match s.place n with
  | none => s
  | some e =>
    s.put n (some (e.write bytes s.loop).2.1)
      ((if e.token.isSome && Evented.Use.mustWait (e.write bytes s.loop).1 then [.waited] else [])
        ++ s.story n) (e.write bytes s.loop).2.2

/-- Bytes are received from the stream in a place. -/
def receive (s : Rack Socket) (n : Nat) (most : Nat) : Rack Socket :=
  match s.place n with
  | none => s
  | some e => s.put n (some (e.read most s.loop).2.1) (s.story n) (e.read most s.loop).2.2

theorem Undisturbed.of_descriptors_eq {h : Host}
    (hd : h.descriptors = s.loop.host.descriptors) : s.Undisturbed { s.loop with host := h } := by
  have hshrinks : s.loop.Shrinks { s.loop with host := h } := by
    refine .of_object?_eq rfl fun fd => ?_
    show (h.descriptors[fd]?).join = _
    rw [hd]
    rfl
  exact ⟨hshrinks.tidy, fun _ _ _ _ => rfl, fun _ _ _ w hw _ => hshrinks.watched w hw⟩

namespace Reachable

variable {s : Rack Socket} {n : Nat}

/-- What the host does for a stream and what the resource makes of it, one after the other. -/
theorem host_use (hs : Reachable Considerate s) {e : Evented Socket} (he : s.place n = some e)
    {h : Host} (hd : h.descriptors = s.loop.host.descriptors) {u : Evented.Use Socket}
    (hu : u.Keeps e) : Reachable Considerate
      (s.put n (some (u.run e { s.loop with host := h }).1)
        (u.deeds e { s.loop with host := h } ++ s.story n)
        (u.run e { s.loop with host := h }).2) := by
  -- the host acts first, then the reactor answers on it
  have helse : s.Considerate (.elsewhere { s.loop with host := h }) := by
    refine ⟨trivial, (fun n v i h => nomatch h), ?_⟩
    rintro l ⟨⟩
    exact .of_descriptors_eq hd
  have huse : (s.act (.elsewhere { s.loop with host := h })).Considerate (.use n u) :=
    ⟨⟨e, he, hu⟩, (fun n v i h => nomatch h), (fun l h => nomatch h)⟩
  have hreach := (hs.act _ helse).act _ huse
  rw [act_use, use_eq (s := s.act (.elsewhere { s.loop with host := h })) he] at hreach
  exact hreach

/-- Sending is among the acts. -/
theorem send (hs : Reachable Considerate s) (n : Nat) (bytes : List UInt8) :
    Reachable Considerate (s.send n bytes) := by
  unfold Rack.send
  cases he : s.place n with
  | none => exact hs
  | some e =>
    exact hs.host_use he (Socket.descriptors_write e.inner bytes s.loop.host)
      (u := .write e.inner (e.inner.write bytes s.loop.host).1) rfl

/-- Receiving is among the acts. -/
theorem receive (hs : Reachable Considerate s) (n : Nat) (most : Nat) :
    Reachable Considerate (s.receive n most) := by
  unfold Rack.receive
  cases he : s.place n with
  | none => exact hs
  | some e =>
    exact hs.host_use he (Socket.descriptors_read e.inner most s.loop.host)
      (u := .read e.inner (e.inner.read most s.loop.host).1) rfl

end Reachable

/-! ### What is watched for -/

namespace Reachable

/-- **Watch, interest and story agree.**  If the multiplexer watches the descriptor of a
registered resource, it does so under its token and with the mask of its interest in effect.
That is the interest that was asked for last, and writable readiness on top of it if the last
thing worth telling is a write that had to wait. -/
theorem interest_spec [Discreet ι] (hs : Reachable Considerate s) (he : s.place n = some e) :
    (∀ token, e.token = some token → ∀ w ∈ s.loop.watched,
      Pollable.descriptor e.inner = some w.descriptor →
        w.token = token ∧ w.mask = e.effective.mask) ∧
    e.effective = if Deed.waits (s.story n) then (Deed.base (s.story n)).union .writable
      else Deed.base (s.story n) :=
  have hsettled := hs.attuned.settled n e he
  ⟨hsettled.watch, hsettled.effective_eq⟩

/-- A host with a connected pair of streams, under descriptors 0 and 1. The second has not been
read from for a while. -/
def pairHost : Host :=
  { Host.initial .silent with
    descriptors := #[some (.stream 0), some (.stream 1)]
    ends := #[.new 1 (.path ""), { StreamEnd.new 0 (.path "") with padding := 1 }] }

/-- Nothing stands anywhere yet, and the loop is new. -/
def pairRack : Rack Socket where
  place _ := none
  story _ := []
  loop :=
    { host := (System.init (.standard .live) pairHost).2
      system := (System.init (.standard .live) pairHost).1.toOption.getD .absent }

/-- A stream is registered, a write to it has to wait, and it moves. -/
def waitingRack : Rack Socket :=
  (((pairRack.act (.bring 0 ⟨.unix, some 0⟩ .readable)).act (.use 0 .register)).send 0 [7]).act
    (.move 0 1)

theorem waitingRack_reachable : Reachable Considerate waitingRack := by
  have hstart : Reachable Considerate pairRack := .start (h := pairHost) rfl
  have hmade := hstart.act (.bring 0 ⟨.unix, some 0⟩ .readable)
    ⟨rfl, (fun n v i h m d hd => nomatch hd), (fun l h => nomatch h)⟩
  have hregistered := hmade.act (.use 0 .register)
    ⟨⟨_, rfl, trivial⟩, (fun n v i h => nomatch h), (fun l h => nomatch h)⟩
  exact (hregistered.send 0 [7]).act (.move 0 1)
    ⟨⟨⟨_, rfl⟩, rfl⟩, (fun n v i h => nomatch h), (fun l h => nomatch h)⟩

/-- Where it is now, it waits for room on top of what it was registered for, and its descriptor
is watched accordingly. -/
theorem interest_spec_waitingRack : ∃ e w, waitingRack.place 1 = some e ∧ e.interest = .readable ∧
    w ∈ waitingRack.loop.watched ∧ w.descriptor = 0 ∧ e.effective = .both ∧
    w.token = 0 ∧ w.mask = Interest.both.mask := by
  have hplace : waitingRack.place 1
      = some ⟨⟨.unix, some 0⟩, some 0, .readable, true, false, false⟩ := by decide +kernel
  have hw : (⟨0, 0, Interest.both.mask⟩ : Watch) ∈ waitingRack.loop.watched := by decide +kernel
  obtain ⟨hwatch, heff⟩ := waitingRack_reachable.interest_spec hplace
  have hstory : waitingRack.story 1 = [.waited, .made .readable] := by decide +kernel
  rw [hstory] at heff
  obtain ⟨ht, hm⟩ := hwatch 0 rfl _ hw rfl
  exact ⟨_, _, hplace, rfl, hw, rfl, heff, ht, hm⟩

end Reachable
end Rack
end EventLoop

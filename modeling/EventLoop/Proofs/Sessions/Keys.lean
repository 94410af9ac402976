import EventLoop.Proofs.Registration.Tenancy
import EventLoop.Proofs.Slab.WellFormed
import EventLoop.Sessions

/-!
# Sessions are registered under their keys

A table of sessions and the table of registrations issue keys from the same
range, each from free keys of its own.  A session is stored first and registered
afterwards; if its key turns out to be taken, it is stored under another.  The
two tables agree all the same, whatever else is registered with the loop.

## Main definitions

* `Added` — what adding a session does to both tables.
* `Tenants` — a table of sessions, other resources, and the loop they share.
* `Tenants.Act` — what can happen; `Tenants.Permits` says when it may.
* `Tenants.Reachable` — the states that come about that way.
* `Tenants.Agreed` — the invariant.

## Main results

* `Sessions.tryAdd_spec` — adding a session stores and registers it under one
  key, or does neither.
* `Reachable.agreed` — **sessions are registered under their keys in every
  reachable state.**
* `Reachable.session_spec`, … — what that says of one session.
-/

namespace EventLoop

variable {ι κ : Type} [Pollable ι] [Pollable κ]

/-! ### Adding -/

/-- What adding the session `v` does to the sessions and to the loop, if it is stored under the
key `o`, or under none. -/
structure Added (v : Evented ι) (s s' : Slab (Evented ι)) (l l' : Loop) (o : Option Token) :
    Prop where
  wellFormed : s'.WellFormed
  offset_eq : s'.offset = s.offset
  get?_eq : ∀ j, s'.get? j = if o = some j then some { v with token := some j } else s.get? j
  key_spec : ∀ key, o = some key → s.offset ≤ key ∧ s.get? key = none
  transfer : Transfer l l' none (o.map fun key => (key, Pollable.descriptor v.inner))
  sameFrame : l.SameFrame l'

namespace Added

variable {v : Evented ι} {s s' : Slab (Evented ι)} {l l' : Loop} {o : Option Token}

/-- A session that goes leaves no trace. -/
theorem none_of_drop (hv : v.token = none) (hs : s'.WellFormed) (ho : s'.offset = s.offset)
    (hget : ∀ j, s'.get? j = s.get? j) (hk : ∀ j, l'.lodged j = l.lodged j)
    (hf : l.SameFrame l') : Added v s s' l (v.drop l') none where
  wellFormed := hs
  offset_eq := ho
  get?_eq j := by rw [if_neg (by intro h; cases h)]; exact hget j
  key_spec := by intro key h; cases h
  transfer := by
    have h := v.transfer_drop l'
    rw [Evented.holding_eq_none_iff.mpr hv] at h
    exact h.after hk
  sameFrame := hf.trans (v.sameFrame_drop l')

/-- An attempt that left no trace may come first. -/
theorem after {t : Slab (Evented ι)} {l'' : Loop} (h : Added v t s' l'' l' o)
    (ho : t.offset = s.offset) (hget : ∀ j, t.get? j = s.get? j)
    (hk : ∀ j, l''.lodged j = l.lodged j) (hf : l.SameFrame l'') : Added v s s' l l' o where
  wellFormed := h.wellFormed
  offset_eq := h.offset_eq.trans ho
  get?_eq j := by rw [h.get?_eq, hget]
  key_spec key hkey := by
    obtain ⟨hle, hnone⟩ := h.key_spec key hkey
    rw [ho] at hle
    rw [hget] at hnone
    exact ⟨hle, hnone⟩
  transfer := h.transfer.after hk
  sameFrame := hf.trans h.sameFrame

end Added

namespace Sessions

theorem tryAdd_spec {v : Evented ι} (hv : v.token = none) (fuel : Nat) :
    ∀ (s : Slab (Evented ι)) (l : Loop), s.WellFormed →
      Added v s (tryAdd v s l fuel).2.1 l (tryAdd v s l fuel).2.2 (tryAdd v s l fuel).1.toOption := by
  -- a clash leaves sessions and registrations as they were, so the attempts after it start
  -- from the same tables as the first, but for the order of the free keys
  induction fuel with
  | zero =>
    intro s l hs
    exact .none_of_drop hv hs rfl (fun _ => rfl) (fun _ => rfl) (.refl l)
  | succ fuel ih =>
    intro s l hs
    unfold tryAdd
    cases hins : s.insert v with
    | error refusal => exact .none_of_drop hv hs rfl (fun _ => rfl) (fun _ => rfl) (.refl l)
    | ok r =>
      obtain ⟨key, stored⟩ := r
      have hkey := Slab.key_of_insert hins
      have hfree : s.get? key = none := hkey ▸ hs.get?_vacantKey
      have hstored := hs.insert hins
      dsimp only
      rcases hc : Session.claim key v l with ⟨r, v', l₁⟩
      have hframe := v.sameFrame_registerAt key l
      have hreg : v.registerAt key l = (r, v', l₁) := hc
      rw [hreg] at hframe
      cases r with
      | ok u =>
        obtain ⟨-, rfl, hl⟩ := Evented.registerAt_ok hreg
        have hcontains : stored.contains key = true :=
          Slab.contains_iff.mpr ⟨v, by rw [Slab.get?_insert hins, if_pos rfl]⟩
        refine ⟨hstored.set key _, ?_, fun j => ?_, ?_, ?_, ?_⟩
        · rw [Slab.offset_set, Slab.offset_insert hins]
        · rw [Slab.get?_set, Slab.get?_insert hins]
          by_cases hj : j = key
          · rw [if_pos ⟨hj, hcontains⟩, if_pos (by rw [hj]; rfl), hj]
          · rw [if_neg (fun h => hj h.1), if_neg hj, if_neg]
            intro h
            exact hj (Option.some.inj h).symm
        · intro k hk
          cases hk
          rw [hkey]
          exact ⟨hs.offset_le_vacantKey, hs.get?_vacantKey⟩
        · exact (Loop.transfer_registerAt_ok hl).before fun _ => rfl
        · exact hframe.trans (.of_system_eq rfl)
      | error f =>
        obtain ⟨rfl, hk⟩ := Evented.registerAt_error hreg
        have hfreed := hstored.remove key
        have hget : ∀ j, (stored.remove key).2.get? j = s.get? j := by
          intro j
          rw [Slab.get?_remove, Slab.get?_insert hins]
          by_cases hj : j = key
          · rw [if_pos hj, hj, hfree]
          · rw [if_neg hj, if_neg hj]
        have hoff : (stored.remove key).2.offset = s.offset := by
          rw [Slab.offset_remove, Slab.offset_insert hins]
        dsimp only
        split
        · -- the key is taken in the loop: it is withdrawn, and the next one tried
          refine (ih _ _ (hfreed.retire key)).after ?_ (fun j => ?_) hk
            (hframe.trans (.of_system_eq rfl))
          · rw [Slab.offset_retire, hoff]
          · rw [Slab.get?_retire, hget]
            by_cases hj : j = key
            · rw [if_pos hj, hj, hfree]
            · rw [if_neg hj]
        · exact .none_of_drop hv hfreed hoff hget hk (hframe.trans (.of_system_eq rfl))

/-- **Adding a session stores and registers it under one key, or does neither.** -/
theorem add_spec {v : Evented ι} (hv : v.token = none) (s : Sessions (Evented ι)) (l : Loop)
    (hs : s.slab.WellFormed) :
    Added v s.slab (s.add v l).2.1.slab l (s.add v l).2.2 (s.add v l).1.toOption := by
  have h := tryAdd_spec hv (l.system.registered + 1) s.slab l hs
  unfold add
  rcases hr : tryAdd v s.slab l (l.system.registered + 1) with ⟨r, slab, l'⟩
  rw [hr] at h
  exact h

theorem remove_of_vacant {s : Sessions (Evented ι)} {key : Token} (h : s.slab.get? key = none)
    (l : Loop) : s.remove key l = (s, l) := by
  unfold remove
  rw [Slab.remove_none h]

/-- A session that is removed gives its key and its token back. -/
theorem remove_of_live {s : Sessions (Evented ι)} {key : Token} {v : Evented ι}
    (h : s.slab.get? key = some v) (l : Loop) : s.remove key l
      = (⟨(s.slab.remove key).2⟩, (v.drop l).note (.sessionRemoved key)) := by
  unfold remove
  rw [Slab.remove_some h]
  rfl

end Sessions

/-! ### Sharing a loop -/

/-- A table of sessions, other resources by number, and the loop that all are registered
with. -/
structure Tenants (ι κ : Type) where
  sessions : Sessions (Evented ι)
  others : Nat → Option (Evented κ)
  loop : Loop

namespace Tenants

/-- What can happen. -/
inductive Act (ι κ : Type)
  /-- A session is added. -/
  | add (v : Evented ι)
  /-- A session is removed. -/
  | remove (key : Token)
  /-- A session is put to use and looks different afterwards. -/
  | tend (key : Token) (v : Evented ι)
  /-- A session changes its interest. -/
  | retune (key : Token) (i : Interest)
  /-- A resource comes up. -/
  | bring (n : Nat) (e : Evented κ)
  /-- A resource is registered under the next token. -/
  | register (n : Nat)
  /-- A resource is registered under a token of the caller's choice. -/
  | registerAt (n : Nat) (token : Token)
  /-- A resource changes its interest. -/
  | reregister (n : Nat) (i : Interest)
  /-- A resource gives its token back. -/
  | deregister (n : Nat)
  /-- A resource goes. -/
  | dismiss (n : Nat)
  /-- Something happens on the host. -/
  | elsewhere (h : Host)

/-- One of the other resources is put to use. -/
def modify (s : Tenants ι κ) (n : Nat) (f : Evented κ → Loop → Evented κ × Loop) : Tenants ι κ :=
  match s.others n with
  | none => s
  | some e =>
    { s with others := Function.update s.others n (some (f e s.loop).1), loop := (f e s.loop).2 }

/-- A session changes its interest. -/
def retune (s : Tenants ι κ) (key : Token) (i : Interest) : Tenants ι κ :=
  match s.sessions.slab.get? key with
  | none => s
  | some v =>
    { s with
      sessions := ⟨s.sessions.slab.set key (v.reregister i s.loop).2.1⟩
      loop := (v.reregister i s.loop).2.2 }

/-- One of the other resources goes. -/
def dismiss (s : Tenants ι κ) (n : Nat) : Tenants ι κ :=
  match s.others n with
  | none => s
  | some e => { s with others := Function.update s.others n none, loop := e.drop s.loop }

/-- What is left of the state after one of them. -/
def act (s : Tenants ι κ) : Act ι κ → Tenants ι κ
  | .add v =>
    { s with sessions := (s.sessions.add v s.loop).2.1, loop := (s.sessions.add v s.loop).2.2 }
  | .remove key =>
    { s with
      sessions := (s.sessions.remove key s.loop).1
      loop := (s.sessions.remove key s.loop).2 }
  | .tend key v => { s with sessions := ⟨s.sessions.slab.set key v⟩ }
  | .retune key i => s.retune key i
  | .bring n e => { s with others := Function.update s.others n (some e) }
  | .register n => s.modify n fun e l => (e.register l).2
  | .registerAt n token => s.modify n fun e l => (e.registerAt token l).2
  | .reregister n i => s.modify n fun e l => (e.reregister i l).2
  | .deregister n => s.modify n fun e l => (e.deregister l).2
  | .dismiss n => s.dismiss n
  | .elsewhere h => { s with loop := { s.loop with host := h } }

/-- What comes in is not registered, and no session is exchanged for another. -/
def Permits (s : Tenants ι κ) : Act ι κ → Prop
  | .add v => v.token = none
  | .tend key v => ∃ old, s.sessions.slab.get? key = some old ∧ v.holding = old.holding
  | .bring n e => s.others n = none ∧ e.token = none
  | _ => True

/-- The states that come about from a loop with nothing registered. -/
inductive Reachable (offset : Token) : Tenants ι κ → Prop
  | start {l : Loop} (policy capacity : Capacity) (hl : l.system.table = .empty 0 capacity) :
      Reachable offset ⟨.empty offset policy, fun _ => none, l⟩
  | act {s : Tenants ι κ} (a : Act ι κ) (ha : s.Permits a) :
      Reachable offset s → Reachable offset (s.act a)

/-- What everybody holds: sessions by their keys, other resources by their numbers. -/
def holding (s : Tenants ι κ) : Token ⊕ Nat → Option Holding
  | .inl key => (s.sessions.slab.get? key).bind Evented.holding
  | .inr n => (s.others n).bind Evented.holding

/-- Sessions are registered under their keys, and nobody holds the token of another. -/
structure Agreed (offset : Token) (s : Tenants ι κ) : Prop where
  wellFormed : s.sessions.slab.WellFormed
  offset_eq : s.sessions.slab.offset = offset
  table_offset : s.loop.system.table.offset = 0
  own : ∀ key v, s.sessions.slab.get? key = some v → v.token = some key ∧ offset ≤ key
  tenancy : Tenancy s.holding s.loop

variable {offset : Token} {s : Tenants ι κ}

/-! ### One change -/

namespace Agreed

/-- One of the other resources changes, or comes or goes. -/
theorem setOther (hs : s.Agreed offset) (n : Nat) (o : Option (Evented κ)) {l' : Loop}
    (htr : Transfer s.loop l' ((s.others n).bind Evented.holding) (o.bind Evented.holding))
    (hframe : s.loop.SameFrame l') :
    Agreed offset { s with others := Function.update s.others n o, loop := l' } where
  wellFormed := hs.wellFormed
  offset_eq := hs.offset_eq
  table_offset := hframe.offset_eq.trans hs.table_offset
  own := hs.own
  tenancy := by
    refine hs.tenancy.transfer (x := .inr n) rfl htr ?_ fun y hy => ?_
    · show (Function.update s.others n o n).bind Evented.holding = _
      rw [Function.update_self]
    · cases y with
      | inl key => rfl
      | inr m =>
        have hm : m ≠ n := by
          rintro rfl
          exact hy rfl
        show (Function.update s.others n o m).bind Evented.holding = _
        rw [Function.update_of_ne hm]
        rfl

/-- The session under one key changes, or comes or goes. -/
theorem setSession (hs : s.Agreed offset) (key : Token) (o : Option (Evented ι))
    {t : Slab (Evented ι)} {l' : Loop} (hwf : t.WellFormed)
    (hoff : t.offset = s.sessions.slab.offset)
    (hget : ∀ j, t.get? j = if j = key then o else s.sessions.slab.get? j)
    (hown : ∀ v, o = some v → v.token = some key ∧ offset ≤ key)
    (htr : Transfer s.loop l' ((s.sessions.slab.get? key).bind Evented.holding)
      (o.bind Evented.holding))
    (hframe : s.loop.SameFrame l') :
    Agreed offset { s with sessions := ⟨t⟩, loop := l' } where
  wellFormed := hwf
  offset_eq := hoff.trans hs.offset_eq
  table_offset := hframe.offset_eq.trans hs.table_offset
  own j v hv := by
    rw [hget] at hv
    by_cases hj : j = key
    · rw [if_pos hj] at hv
      rw [hj]
      exact hown v hv
    · rw [if_neg hj] at hv
      exact hs.own j v hv
  tenancy := by
    refine hs.tenancy.transfer (x := .inl key) rfl htr ?_ fun y hy => ?_
    · show (t.get? key).bind Evented.holding = _
      rw [hget, if_pos rfl]
    · cases y with
      | inl j =>
        have hj : j ≠ key := by
          rintro rfl
          exact hy rfl
        show (t.get? j).bind Evented.holding = _
        rw [hget, if_neg hj]
        rfl
      | inr m => rfl

theorem modify (hs : s.Agreed offset) {n : Nat} {f : Evented κ → Loop → Evented κ × Loop}
    (htr : ∀ e l, Transfer l (f e l).2 e.holding (f e l).1.holding)
    (hframe : ∀ e (l : Loop), l.SameFrame (f e l).2) : (s.modify n f).Agreed offset := by
  unfold Tenants.modify
  cases hn : s.others n with
  | none => exact hs
  | some e =>
    refine hs.setOther n (some _) ?_ (hframe e s.loop)
    rw [hn]
    exact htr e s.loop

/-- The same session, in another shape. -/
theorem replace (hs : s.Agreed offset) {key : Token} {v v' : Evented ι} {l' : Loop}
    (hv : s.sessions.slab.get? key = some v) (hh : v'.holding = v.holding)
    (hk : ∀ j, l'.lodged j = s.loop.lodged j) (hframe : s.loop.SameFrame l') :
    Agreed offset { s with sessions := ⟨s.sessions.slab.set key v'⟩, loop := l' } := by
  obtain ⟨ht, hle⟩ := hs.own key v hv
  refine hs.setSession key (some v') (hs.wellFormed.set key v')
    (Slab.offset_set _ _ _) (fun j => ?_) (fun w hw => ?_) ?_ hframe
  · rw [Slab.get?_set, Slab.contains_iff.mpr ⟨v, hv⟩]
    by_cases hj : j = key
    · rw [if_pos ⟨hj, rfl⟩, if_pos hj]
    · rw [if_neg (fun h => hj h.1), if_neg hj]
  · cases hw
    have hv' := hh.trans (Evented.holding_eq_some_iff.mpr ⟨ht, rfl⟩)
    exact ⟨(Evented.holding_eq_some_iff.mp hv').1, hle⟩
  · rw [hv]
    show Transfer s.loop l' v.holding v'.holding
    rw [hh]
    exact .keep hk

theorem add (hs : s.Agreed offset) {v : Evented ι} (hv : v.token = none) :
    (s.act (.add v)).Agreed offset := by
  have hadd := s.sessions.add_spec hv s.loop hs.wellFormed
  show Agreed offset
    { s with sessions := (s.sessions.add v s.loop).2.1, loop := (s.sessions.add v s.loop).2.2 }
  rcases hr : s.sessions.add v s.loop with ⟨r, ⟨t⟩, l'⟩
  rw [hr] at hadd
  dsimp only at hadd ⊢
  generalize r.toOption = o at hadd
  have htr := hadd.transfer
  cases o with
  | none =>
    -- nothing is stored: the next key stays free
    refine hs.setSession s.sessions.slab.vacantKey none hadd.wellFormed
      hadd.offset_eq (fun j => ?_) (fun w hw => by cases hw) ?_ hadd.sameFrame
    · rw [hadd.get?_eq, if_neg (by intro h; cases h)]
      by_cases hj : j = s.sessions.slab.vacantKey
      · rw [if_pos hj, hj, hs.wellFormed.get?_vacantKey]
      · rw [if_neg hj]
    · rw [hs.wellFormed.get?_vacantKey]
      exact htr
  | some key =>
    obtain ⟨hle, hfree⟩ := hadd.key_spec key rfl
    refine hs.setSession key (some { v with token := some key }) hadd.wellFormed
      hadd.offset_eq (fun j => ?_) (fun w hw => ?_) ?_ hadd.sameFrame
    · rw [hadd.get?_eq]
      by_cases hj : j = key
      · rw [if_pos (by rw [hj]), if_pos hj, hj]
      · rw [if_neg (fun h => hj (Option.some.inj h).symm), if_neg hj]
    · cases hw
      exact ⟨rfl, hs.offset_eq ▸ hle⟩
    · rw [hfree]
      exact htr

theorem remove (hs : s.Agreed offset) (key : Token) : (s.act (.remove key)).Agreed offset := by
  show Agreed offset
    { s with
      sessions := (s.sessions.remove key s.loop).1
      loop := (s.sessions.remove key s.loop).2 }
  cases hv : s.sessions.slab.get? key with
  | none =>
    rw [Sessions.remove_of_vacant hv]
    exact hs
  | some v =>
    rw [Sessions.remove_of_live hv]
    refine hs.setSession key none (hs.wellFormed.remove key)
      (Slab.offset_remove _ key) (Slab.get?_remove _ key) (fun w hw => by cases hw) ?_
      ((v.sameFrame_drop s.loop).trans (.of_system_eq rfl))
    rw [hv]
    exact (v.transfer_drop s.loop).before fun _ => rfl

theorem retune (hs : s.Agreed offset) (key : Token) (i : Interest) :
    (s.retune key i).Agreed offset := by
  unfold Tenants.retune
  cases hv : s.sessions.slab.get? key with
  | none => exact hs
  | some v =>
    exact hs.replace hv (v.holding_reregister i s.loop) (v.lodged_reregister i s.loop)
      (v.sameFrame_reregister i s.loop)

theorem dismiss (hs : s.Agreed offset) (n : Nat) : (s.dismiss n).Agreed offset := by
  unfold Tenants.dismiss
  cases hn : s.others n with
  | none => exact hs
  | some e =>
    refine hs.setOther n none ?_ (e.sameFrame_drop s.loop)
    rw [hn]
    exact e.transfer_drop s.loop

/-- **The invariant is kept by everything that may happen.** -/
theorem act (hs : s.Agreed offset) (a : Act ι κ) (ha : s.Permits a) :
    (s.act a).Agreed offset := by
  cases a with
  | add v => exact hs.add ha
  | remove key => exact hs.remove key
  | tend key v =>
    obtain ⟨old, hold, hh⟩ := ha
    exact hs.replace hold hh (fun _ => rfl) (.refl _)
  | retune key i => exact hs.retune key i
  | bring n e =>
    refine hs.setOther n (some e) ?_ (.refl s.loop)
    rw [ha.1]
    show Transfer s.loop s.loop none e.holding
    rw [Evented.holding_eq_none_iff.mpr ha.2]
    exact .keep fun _ => rfl
  | register n =>
    refine hs.modify (fun e l => e.transfer_register l) fun e l => ?_
    rw [Evented.register_eq]
    exact e.sameFrame_registerAt _ l
  | registerAt n token =>
    exact hs.modify (fun e l => e.transfer_registerAt token l)
      fun e l => e.sameFrame_registerAt token l
  | reregister n i =>
    refine hs.modify (fun e l => ?_) fun e l => e.sameFrame_reregister i l
    show Transfer l (e.reregister i l).2.2 e.holding (e.reregister i l).2.1.holding
    rw [e.holding_reregister]
    exact .keep (e.lodged_reregister i l)
  | deregister n =>
    refine hs.modify (fun e l => ?_) fun e l => e.sameFrame_deregister l
    show Transfer l (e.deregister l).2.2 e.holding (e.deregister l).2.1.holding
    rw [e.holding_deregister]
    exact e.transfer_deregister l
  | dismiss n => exact hs.dismiss n
  | elsewhere h =>
    exact ⟨hs.wellFormed, hs.offset_eq, hs.table_offset, hs.own,
      hs.tenancy.congr fun _ => rfl⟩

end Agreed

/-! ### Every state -/

namespace Reachable

theorem holding_start {policy : Capacity} {l : Loop} (x : Token ⊕ Nat) :
    (Tenants.mk (.empty offset policy) (fun _ => none) l : Tenants ι κ).holding x = none := by
  cases x with
  | inl key =>
    show ((Slab.empty offset policy : Slab (Evented ι)).get? key).bind Evented.holding = none
    rw [Slab.get?_empty]
    rfl
  | inr n => rfl

/-- **Sessions are registered under their keys in every reachable state.** -/
theorem agreed (hs : Reachable offset s) : s.Agreed offset := by
  induction hs with
  | start policy capacity hl =>
    refine ⟨.of_empty offset policy, rfl, by rw [hl]; rfl, fun key v hv => ?_, ?_, ?_⟩
    · cases (Slab.get?_empty offset policy key).symm.trans hv
    · intro x token d h
      cases (holding_start x).symm.trans h
    · intro x y token d d' h _
      cases (holding_start x).symm.trans h
  | act a ha _ ih => exact ih.act a ha

/-- **A session lives under the token it is registered under**, which is not below the offset,
with its own descriptor.  Nobody else holds that token, and whoever holds a token finds it in
the table.  Once the session is removed, its key is free in both tables, and the next that
either of them issues. -/
theorem session_spec (hs : Reachable offset s) :
    (∀ key v, s.sessions.slab.get? key = some v →
      v.token = some key ∧ offset ≤ key ∧ s.sessions.slab.offset = offset ∧
      (∃ r, s.loop.system.table.get? key = some r ∧
        r.descriptor = Pollable.descriptor v.inner) ∧
      (s.act (.remove key)).sessions.slab.get? key = none ∧
      (s.act (.remove key)).sessions.slab.vacantKey = key ∧
      (s.act (.remove key)).loop.system.table.get? key = none ∧
      (s.act (.remove key)).loop.system.table.vacantKey = key) ∧
    (∀ x token d, s.holding x = some (token, d) →
      ∃ r, s.loop.system.table.get? token = some r ∧ r.descriptor = d) ∧
    ∀ x y token d d', s.holding x = some (token, d) → s.holding y = some (token, d') →
      x = y := by
  have ha := hs.agreed
  have hheld : ∀ x token d, s.holding x = some (token, d) →
      ∃ r, s.loop.system.table.get? token = some r ∧ r.descriptor = d := fun x token d h =>
    Loop.lodged_eq_some_iff.mp (ha.tenancy.held x token d h)
  refine ⟨fun key v hv => ?_, hheld, ha.tenancy.unique⟩
  obtain ⟨ht, hle⟩ := ha.own key v hv
  have hh : s.holding (.inl key) = some (key, Pollable.descriptor v.inner) := by
    show (s.sessions.slab.get? key).bind Evented.holding = _
    rw [hv]
    exact Evented.holding_eq_some_iff.mpr ⟨ht, rfl⟩
  obtain ⟨r, hr, hd⟩ := hheld _ _ _ hh
  refine ⟨ht, hle, ha.offset_eq, ⟨r, hr, hd⟩, ?_⟩
  show ((s.sessions.remove key s.loop).1.slab.get? key = none) ∧
    ((s.sessions.remove key s.loop).1.slab.vacantKey = key) ∧
    ((s.sessions.remove key s.loop).2.system.table.get? key = none) ∧
    ((s.sessions.remove key s.loop).2.system.table.vacantKey = key)
  rw [Sessions.remove_of_live hv]
  refine ⟨?_, Slab.vacantKey_remove hv (ha.offset_eq ▸ hle), Evented.vacant_drop ht hr ?_⟩
  · rw [Slab.get?_remove, if_pos rfl]
  · rw [ha.table_offset]
    exact Nat.zero_le key

/-- Nothing is registered yet with a loop that has two counters on its host. -/
def pairStart : Tenants Notifier Notifier where
  sessions := .empty 0 .unbounded
  others _ := none
  loop :=
    { host := { Host.initial .silent with
        descriptors := #[some (.multiplexer []), some (.counter .zero), some (.counter .zero)] }
      system := { System.absent with poller := ⟨some 0, .live⟩ } }

/-- A counter is registered first, and takes the first token; the session is added after it. -/
def pairRun : Tenants Notifier Notifier :=
  ((pairStart.act (.bring 7 (.new ⟨some 1⟩ .readable))).act (.register 7)).act
    (.add (.new ⟨some 2⟩ .readable))

theorem session_spec_pairRun : Reachable 0 pairRun ∧
    (∃ v, pairRun.sessions.slab.get? 1 = some v ∧ v.token = some 1) ∧
    pairRun.holding (.inr 7) = some (0, some 1) ∧
    (pairRun.act (.remove 1)).loop.system.table.vacantKey = 1 := by
  have hstart : Reachable 0 pairStart := .start .unbounded .unbounded rfl
  have hbring := hstart.act (.bring 7 (.new ⟨some 1⟩ .readable)) ⟨rfl, rfl⟩
  have hregister := hbring.act (.register 7) trivial
  have hadd := hregister.act (.add (.new ⟨some 2⟩ .readable)) rfl
  have hrun : Reachable 0 pairRun := hadd
  have hlive : (pairRun.sessions.slab.get? 1).isSome = true := by decide +kernel
  obtain ⟨v, hv⟩ := Option.isSome_iff_exists.mp hlive
  obtain ⟨ht, -, -, -, -, -, -, hvac⟩ := hrun.session_spec.1 1 v hv
  exact ⟨hrun, ⟨v, hv, ht⟩, by decide +kernel, hvac⟩

end Reachable

end Tenants
end EventLoop

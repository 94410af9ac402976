import EventLoop.Proofs.Host.Descriptors
import EventLoop.Proofs.Registration.Table
import Mathlib.Data.List.Nodup

/-!
# The multiplexer watches what is registered

A loop keeps a table of its registrations, and its multiplexer keeps a list of
the descriptors it watches.  The two are changed one after the other, and either
change can fail.  They agree all the same after every operation, as long as
nobody else changes what the multiplexer watches and no descriptor goes while it
is registered.

## Main definitions

* `Loop.CallsFor` — the watches that the registrations of a loop call for.
* `Loop.Undisturbed` — what may happen between two operations.
* `Registering config l` — `l` is reached from a new loop by operations that succeed or fail.
* `Mirrored` — the invariant.

## Main results

* `System.init_ok` — a new loop watches its own bell and nothing else.
* `Registering.mirrored` — the invariant holds in every reachable state.
* `Registering.watches_spec` — **the multiplexer watches exactly what is registered.**
-/

namespace EventLoop

/-! ### Polling -/

namespace Poller

variable {p : Poller} {fd : Option Nat} {token : Token} {i : Interest} {h h' : Host}

theorem add_ok (ha : p.add fd token i h = .ok h') :
    h.control p.descriptor fd (.add token i.mask) = .ok h' := by
  unfold add at ha
  cases hc : h.control p.descriptor fd (.add token i.mask) with
  | error e => rw [hc] at ha; cases ha
  | ok host => rw [hc] at ha; cases ha; rfl

theorem modify_ok (hm : p.modify fd token i h = .ok h') :
    h.control p.descriptor fd (.modify token i.mask) = .ok h' := by
  unfold modify at hm
  cases hc : h.control p.descriptor fd (.modify token i.mask) with
  | error e => rw [hc] at hm; cases hm
  | ok host => rw [hc] at hm; cases hm; rfl

end Poller

/-! ### The start -/

/-- A new flag either has no descriptor or takes one that was free. -/
theorem Notifier.create_spec (h : Host) : (Notifier.create h).1.descriptor = none ∨
    ∃ fd, (Notifier.create h).1.descriptor = some fd ∧ h.object? fd = none ∧
      ∀ j, (Notifier.create h).2.object? j
        = if j = fd then some (.counter .zero) else h.object? j := by
  unfold Notifier.create
  cases ha : h.allocate (.counter .zero) with
  | error e => exact Or.inl rfl
  | ok r =>
    obtain ⟨fd, h'⟩ := r
    obtain ⟨hfree, hobj⟩ := Host.allocate_ok ha
    exact Or.inr ⟨fd, rfl, hfree, hobj⟩

/-- **A new loop watches its own bell and nothing else.** -/
theorem System.init_ok {config : Config} {h h' : Host} {s : System}
    (hs : System.init config h = (.ok s, h')) :
    s.table = Slab.empty 0 config.capacity ∧ ∃ p bell, s.poller.descriptor = some p ∧
      s.control.bell.descriptor = some bell ∧ p ≠ bell ∧ h'.Watchable bell ∧
      h'.object? p = some (.multiplexer [⟨bell, systemToken, Interest.readable.mask⟩]) := by
  unfold System.init Poller.create at hs
  cases ha : h.allocate (.multiplexer []) with
  | error e => rw [ha] at hs; cases hs
  | ok r =>
    obtain ⟨p, h₁⟩ := r
    obtain ⟨-, hobj₁⟩ := Host.allocate_ok ha
    rw [ha] at hs
    dsimp only [Channel.create] at hs
    obtain hnone | ⟨bell, hbell, hfree, hobj₂⟩ :=
      Notifier.create_spec { h₁ with channels := h₁.channels + 1 }
    · rw [hnone] at hs
      cases hs
    · rw [hbell] at hs
      have hp₁ : h₁.object? p = some (.multiplexer []) := by rw [hobj₁, if_pos rfl]
      have hne : p ≠ bell := by
        rintro rfl
        cases hp₁.symm.trans hfree
      split at hs
      · next host hadd =>
        obtain ⟨p', f, old, new, hp', hf, -, hold, hwatch, happ, rfl⟩ :=
          Host.control_ok (Poller.add_ok hadd)
        cases hp'
        cases hf
        -- a new multiplexer watches nothing
        have hempty : old = [] := by
          rw [hobj₂, if_neg hne] at hold
          cases hp₁.symm.trans hold
          rfl
        subst hempty
        cases happ
        cases hs
        refine ⟨rfl, p, bell, rfl, hbell, hne, hwatch.setObject hold (by intro h; cases h), ?_⟩
        rw [Host.object?_setObject hold, if_pos rfl]
        rfl
      · cases hs

theorem Watch.eq_mk {w : Watch} {fd : Nat} {token : Token} {mask : Mask}
    (hd : some fd = some w.descriptor) (ht : w.token = token) (hm : w.mask = mask) :
    w = ⟨fd, token, mask⟩ := by
  cases hd
  cases ht
  cases hm
  rfl

namespace Loop

/-! ### What is called for -/

/-- The watches that the registrations of a loop call for: its own bell under its own token,
and every registered descriptor under the token and with the interest it is registered
with. -/
def CallsFor (l : Loop) (w : Watch) : Prop :=
  (l.system.control.bell.descriptor = some w.descriptor ∧ w.token = systemToken ∧
      w.mask = Interest.readable.mask) ∨
    ∃ r, l.system.table.get? w.token = some r ∧ r.descriptor = some w.descriptor ∧
      w.mask = r.interest.mask

/-- The descriptor is the bell of the loop or registered with it. -/
def Uses (l : Loop) (fd : Nat) : Prop :=
  l.system.control.bell.descriptor = some fd ∨
    ∃ token r, l.system.table.get? token = some r ∧ r.descriptor = some fd

/-- What may happen between two operations on the registrations: anything that leaves them
alone, does not touch what the multiplexer watches, and does not take a descriptor in use
away or put a regular file in its place. -/
structure Undisturbed (l l' : Loop) : Prop where
  /-- The registrations stay. -/
  table_eq : l'.system.table = l.system.table
  /-- The multiplexer stays. -/
  poller_eq : l'.system.poller = l.system.poller
  /-- The bell stays. -/
  bell_eq : l'.system.control.bell = l.system.control.bell
  /-- What the multiplexer watches stays. -/
  multiplexer_eq : l'.host.objectOf? l.system.poller.descriptor
    = l.host.objectOf? l.system.poller.descriptor
  /-- Descriptors in use stay open. -/
  kept : ∀ fd, l.Uses fd → l.host.Watchable fd → l'.host.Watchable fd

/-- The states a loop reaches from its start through operations on its registrations, whether
these succeed or fail, and whatever else leaves the loop undisturbed. -/
inductive Registering (config : Config) : Loop → Prop
  /-- A new loop. -/
  | init {h h' : Host} {s : System} (hs : System.init config h = (.ok s, h')) :
      Registering config ⟨h', s⟩
  /-- Registers under the next token. -/
  | register {l : Loop} (fd : Option Nat) (i : Interest) :
      Registering config l → Registering config (l.register fd i).2
  /-- Registers under a token of the caller's choice. -/
  | registerAt {l : Loop} (fd : Option Nat) (token : Token) (i : Interest) :
      Registering config l → Registering config (l.registerAt fd token i).2
  /-- Changes an interest. -/
  | reregister {l : Loop} (token : Token) (i : Interest) :
      Registering config l → Registering config (l.reregister token i).2
  /-- Frees a token. -/
  | deregister {l : Loop} (token : Token) :
      Registering config l → Registering config (l.deregister token).2
  /-- Something else happens. -/
  | elsewhere {l l' : Loop} (hu : l.Undisturbed l') :
      Registering config l → Registering config l'

/-! ### The invariant -/

/-- Table and multiplexer agree: `p` is the multiplexer, `bell` the loop's own descriptor, and
`watches` is what is watched. -/
structure Mirrored (l : Loop) (p bell : Nat) (watches : List Watch) : Prop where
  /-- The multiplexer of the loop. -/
  poller_eq : l.system.poller.descriptor = some p
  /-- The bell of the loop. -/
  bell_eq : l.system.control.bell.descriptor = some bell
  /-- What is watched. -/
  object_eq : l.host.object? p = some (.multiplexer watches)
  /-- What is watched is what is called for. -/
  mem_iff : ∀ w, w ∈ watches ↔ l.CallsFor w
  /-- Nothing is watched twice. -/
  nodup : (watches.map (·.descriptor)).Nodup
  /-- What is watched can be, and is not the multiplexer itself. -/
  watchable : ∀ w ∈ watches, p ≠ w.descriptor ∧ l.host.Watchable w.descriptor
  /-- What is registered has a descriptor. -/
  descriptor_some : ∀ token r, l.system.table.get? token = some r → ∃ fd, r.descriptor = some fd
  /-- The loop's own token is not in the table. -/
  vacant : l.system.table.get? systemToken = none
  /-- The table is well-formed. -/
  wellFormed : l.system.table.WellFormed

namespace Mirrored

variable {l l' : Loop} {p bell : Nat} {watches : List Watch}

/-- Two watches of one descriptor are the same watch. -/
theorem eq_of_descriptor_eq (hl : l.Mirrored p bell watches) {w w' : Watch} (hw : w ∈ watches)
    (hw' : w' ∈ watches) (h : w.descriptor = w'.descriptor) : w = w' :=
  List.inj_on_of_nodup_map hl.nodup hw hw' h

/-- A registered descriptor is watched under its token. -/
theorem watch_mem (hl : l.Mirrored p bell watches) {token : Token} {r : Registration} {fd : Nat}
    (hr : l.system.table.get? token = some r) (hfd : r.descriptor = some fd) :
    ⟨fd, token, r.interest.mask⟩ ∈ watches :=
  (hl.mem_iff _).mpr (Or.inr ⟨r, hr, hfd, rfl⟩)

/-- Two tokens with one descriptor are the same token. -/
theorem token_eq_of_descriptor_eq (hl : l.Mirrored p bell watches) {t₁ t₂ : Token}
    {r₁ r₂ : Registration} (h₁ : l.system.table.get? t₁ = some r₁)
    (h₂ : l.system.table.get? t₂ = some r₂) (h : r₁.descriptor = r₂.descriptor) : t₁ = t₂ := by
  obtain ⟨fd, hfd⟩ := hl.descriptor_some t₁ r₁ h₁
  have hw := hl.eq_of_descriptor_eq (hl.watch_mem h₁ hfd) (hl.watch_mem h₂ (h ▸ hfd)) rfl
  exact congrArg Watch.token hw

theorem ne_systemToken (hl : l.Mirrored p bell watches) {token : Token} {r : Registration}
    (hr : l.system.table.get? token = some r) : token ≠ systemToken := by
  rintro rfl
  rw [hl.vacant] at hr
  cases hr

/-- What a request that went through has done to what is watched. -/
theorem control_ok (hl : l.Mirrored p bell watches) {fd : Option Nat} {c : Control} {host : Host}
    (hc : l.host.control l.system.poller.descriptor fd c = .ok host) :
    ∃ f new, fd = some f ∧ p ≠ f ∧ l.host.Watchable f ∧ c.apply watches f = .ok new ∧
      host = l.host.setObject p (.multiplexer new) := by
  obtain ⟨p', f, old, new, hp', hfd, hpf, hobj, hf, happ, hhost⟩ := Host.control_ok hc
  rw [hl.poller_eq] at hp'
  cases hp'
  rw [hl.object_eq] at hobj
  cases hobj
  exact ⟨f, new, hfd, hpf, hf, happ, hhost⟩

/-- Nothing is watched under a token that is not registered, but for the bell. -/
theorem token_ne_of_vacant (hl : l.Mirrored p bell watches) {token : Token}
    (hne : token ≠ systemToken) (hvac : l.system.table.get? token = none) {w : Watch}
    (hw : w ∈ watches) : w.token ≠ token := by
  rcases (hl.mem_iff w).mp hw with ⟨-, ht, -⟩ | ⟨r, hr, -, -⟩
  · rw [ht]
    exact Ne.symm hne
  · intro heq
    rw [heq, hvac] at hr
    cases hr

/-- Among what is watched, a registered token and its descriptor single out the same. -/
theorem token_eq_iff (hl : l.Mirrored p bell watches) {token : Token} {r : Registration} {fd : Nat}
    (hr : l.system.table.get? token = some r) (hfd : r.descriptor = some fd) {w : Watch}
    (hw : w ∈ watches) : w.token = token ↔ w.descriptor = fd := by
  constructor
  · intro ht
    rcases (hl.mem_iff w).mp hw with ⟨-, hsys, -⟩ | ⟨r', hr', hd, -⟩
    · -- the bell's token is not registered
      rw [← ht, hsys, hl.vacant] at hr
      cases hr
    · rw [ht, hr] at hr'
      cases hr'
      rw [hfd] at hd
      exact (Option.some.inj hd).symm
  · intro hd
    have heq : w = ⟨fd, token, r.interest.mask⟩ :=
      hl.eq_of_descriptor_eq hw (hl.watch_mem hr hfd) hd
    rw [heq]

/-! ### One operation -/

/-- What is called for after one token has changed. -/
theorem callsFor_iff (hbell : l'.system.control.bell = l.system.control.bell) {token : Token}
    {o : Option Registration} (hne : token ≠ systemToken)
    (hget : ∀ j, l'.system.table.get? j = if j = token then o else l.system.table.get? j)
    (w : Watch) : l'.CallsFor w ↔
      (∃ r, o = some r ∧ w.token = token ∧ r.descriptor = some w.descriptor ∧
        w.mask = r.interest.mask) ∨ (l.CallsFor w ∧ w.token ≠ token) := by
  unfold CallsFor
  rw [hbell, hget]
  -- the watches under other tokens are called for as before
  by_cases ht : w.token = token
  · rw [if_pos ht]
    constructor
    · rintro (⟨-, hsys, -⟩ | ⟨r, ho, hd, hm⟩)
      · exact absurd (ht.symm.trans hsys) hne
      · exact Or.inl ⟨r, ho, ht, hd, hm⟩
    · rintro (⟨r, ho, -, hd, hm⟩ | ⟨-, hn⟩)
      · exact Or.inr ⟨r, ho, hd, hm⟩
      · exact absurd ht hn
  · rw [if_neg ht]
    constructor
    · intro hc
      exact Or.inr ⟨hc, ht⟩
    · rintro (⟨-, -, ht', -⟩ | ⟨hc, -⟩)
      · exact absurd ht' ht
      · exact hc

/-- One token changes in the table, and the multiplexer follows. -/
theorem change (hl : l.Mirrored p bell watches) {watches' : List Watch} {token : Token}
    {o : Option Registration} (hframe : l.SameFrame l')
    (hhost : ∀ fd, l'.host.object? fd = (l.host.setObject p (.multiplexer watches')).object? fd)
    (hne : token ≠ systemToken)
    (hget : ∀ j, l'.system.table.get? j = if j = token then o else l.system.table.get? j)
    (hmem : ∀ w, w ∈ watches' ↔ (∃ r, o = some r ∧ w.token = token ∧
      r.descriptor = some w.descriptor ∧ w.mask = r.interest.mask) ∨
        (w ∈ watches ∧ w.token ≠ token))
    (hnodup : (watches'.map (·.descriptor)).Nodup)
    (ho : ∀ r, o = some r → ∃ fd, r.descriptor = some fd ∧ p ≠ fd ∧ l.host.Watchable fd)
    (hwf : l'.system.table.WellFormed) : l'.Mirrored p bell watches' where
  poller_eq := by rw [hframe.poller_eq]; exact hl.poller_eq
  bell_eq := by rw [hframe.control_eq]; exact hl.bell_eq
  object_eq := by rw [hhost, Host.object?_setObject hl.object_eq, if_pos rfl]
  mem_iff w := by
    have hbell : l'.system.control.bell = l.system.control.bell := by rw [hframe.control_eq]
    rw [hmem, callsFor_iff hbell hne hget, hl.mem_iff]
  nodup := hnodup
  watchable w hw := by
    have hold : p ≠ w.descriptor ∧ l.host.Watchable w.descriptor := by
      rcases (hmem w).mp hw with ⟨r, hr, -, hd, -⟩ | ⟨hw', -⟩
      · obtain ⟨fd, hfd, hp, hwatch⟩ := ho r hr
        rw [hd] at hfd
        cases hfd
        exact ⟨hp, hwatch⟩
      · exact hl.watchable w hw'
    obtain ⟨o', ho', hfile⟩ := hold.2.setObject hl.object_eq (o := .multiplexer watches')
      (by intro h; cases h)
    exact ⟨hold.1, o', by rw [hhost]; exact ho', hfile⟩
  descriptor_some j r hr := by
    rw [hget] at hr
    by_cases hj : j = token
    · rw [if_pos hj] at hr
      obtain ⟨fd, hfd, -⟩ := ho r hr
      exact ⟨fd, hfd⟩
    · rw [if_neg hj] at hr
      exact hl.descriptor_some j r hr
  vacant := by
    rw [hget, if_neg (Ne.symm hne)]
    exact hl.vacant
  wellFormed := hwf

/-- Nothing changes but the way the table is laid out. -/
theorem congr (hl : l.Mirrored p bell watches) (hframe : l.SameFrame l')
    (hhost : l'.host = l.host)
    (hget : ∀ j, l'.system.table.get? j = l.system.table.get? j)
    (hwf : l'.system.table.WellFormed) : l'.Mirrored p bell watches where
  poller_eq := by rw [hframe.poller_eq]; exact hl.poller_eq
  bell_eq := by rw [hframe.control_eq]; exact hl.bell_eq
  object_eq := by rw [hhost]; exact hl.object_eq
  mem_iff w := by
    unfold CallsFor
    rw [hframe.control_eq, hget]
    exact hl.mem_iff w
  nodup := hl.nodup
  watchable w hw := by rw [hhost]; exact hl.watchable w hw
  descriptor_some j r hr := by rw [hget] at hr; exact hl.descriptor_some j r hr
  vacant := by rw [hget]; exact hl.vacant
  wellFormed := hwf

theorem registerAt (hl : l.Mirrored p bell watches) (fd : Option Nat) (token : Token)
    (i : Interest) : ∃ watches', (l.registerAt fd token i).2.Mirrored p bell watches' := by
  have hframe := sameFrame_registerAt l fd token i
  have hwf := wellFormed_registerAt hl.wellFormed fd token i
  rcases h : l.registerAt fd token i with ⟨r, l'⟩
  rw [h] at hframe hwf
  cases r with
  | error e =>
    exact ⟨watches, hl.congr hframe (host_registerAt_error h) (get?_registerAt_error h) hwf⟩
  | ok u =>
    have hget := get?_registerAt_ok h
    have hvac := vacant_of_registerAt_ok h
    obtain ⟨hne, table, host, -, hadd, rfl⟩ := registerAt_ok h
    obtain ⟨f, new, rfl, hpf, hf, happ, rfl⟩ := hl.control_ok (Poller.add_ok hadd)
    obtain ⟨hfresh, rfl⟩ := Control.apply_add_ok happ
    -- the watch added last is the only one under its token, which was vacant
    refine ⟨_, hl.change hframe (fun _ => rfl) hne hget (fun w => ?_) ?_ ?_ hwf⟩
    · rw [List.mem_append, List.mem_singleton]
      constructor
      · rintro (hw | rfl)
        · exact Or.inr ⟨hw, hl.token_ne_of_vacant hne hvac hw⟩
        · exact Or.inl ⟨_, rfl, rfl, rfl, rfl⟩
      · rintro (⟨r, hr, ht, hd, hm⟩ | ⟨hw, -⟩)
        · cases hr
          exact Or.inr (Watch.eq_mk hd ht hm)
        · exact Or.inl hw
    · rw [List.map_append, List.map_singleton]
      exact List.nodup_append.mpr ⟨hl.nodup, List.nodup_singleton _, by
        intro a ha b hb hab
        rw [List.mem_singleton] at hb
        rw [hab, hb] at ha
        exact hfresh ha⟩
    · intro r hr
      cases hr
      exact ⟨f, rfl, hpf, hf⟩

theorem register (hl : l.Mirrored p bell watches) (fd : Option Nat) (i : Interest) :
    ∃ watches', (l.register fd i).2.Mirrored p bell watches' := by
  rw [register_eq]
  exact hl.registerAt fd _ i

theorem reregister (hl : l.Mirrored p bell watches) (token : Token) (i : Interest) :
    ∃ watches', (l.reregister token i).2.Mirrored p bell watches' := by
  have hframe := sameFrame_reregister l token i
  have hwf := wellFormed_reregister hl.wellFormed token i
  rcases h : l.reregister token i with ⟨r, l'⟩
  rw [h] at hframe hwf
  cases r with
  | error e =>
    rw [reregister_error h]
    exact ⟨watches, hl⟩
  | ok u =>
    obtain ⟨r, host, hr, hmod, rfl⟩ := reregister_ok h
    have hget := get?_reregister_ok h hr
    obtain ⟨f, new, hfd, hpf, hf, happ, rfl⟩ := hl.control_ok (Poller.modify_ok hmod)
    obtain ⟨hold, rfl⟩ := Control.apply_modify_ok happ
    refine ⟨_, hl.change hframe (fun _ => rfl) (hl.ne_systemToken hr) hget (fun w => ?_) ?_ ?_ hwf⟩
    · rw [Control.mem_replace hold]
      constructor
      · rintro (rfl | ⟨hw, hd⟩)
        · exact Or.inl ⟨_, rfl, rfl, hfd, rfl⟩
        · exact Or.inr ⟨hw, fun ht => hd ((hl.token_eq_iff hr hfd hw).mp ht)⟩
      · rintro (⟨r', hr', ht, hd, hm⟩ | ⟨hw, ht⟩)
        · cases hr'
          exact Or.inl (Watch.eq_mk (hfd.symm.trans hd) ht hm)
        · exact Or.inr ⟨hw, fun hd => ht ((hl.token_eq_iff hr hfd hw).mpr hd)⟩
    · rw [Control.map_descriptor_replace]
      exact hl.nodup
    · intro r' hr'
      cases hr'
      exact ⟨f, hfd, hpf, hf⟩

theorem deregister (hl : l.Mirrored p bell watches) (token : Token) :
    ∃ watches', (l.deregister token).2.Mirrored p bell watches' := by
  have hframe := sameFrame_deregister l token
  have hwf := wellFormed_deregister hl.wellFormed token
  cases hr : l.system.table.get? token with
  | none =>
    rw [deregister_of_vacant hr]
    exact ⟨watches, hl⟩
  | some r =>
    obtain ⟨f, hfd⟩ := hl.descriptor_some token r hr
    have hw := hl.watch_mem hr hfd
    obtain ⟨hpf, hf⟩ := hl.watchable _ hw
    have happ := Control.apply_remove_of_mem (List.mem_map_of_mem (f := Watch.descriptor) hw)
    -- the multiplexer knows the descriptor, so it cannot refuse
    have hrem : l.system.poller.remove r.descriptor l.host
        = .ok (l.host.setObject p (.multiplexer (watches.filter (·.descriptor != f)))) := by
      unfold Poller.remove
      rw [hl.poller_eq, hfd, Host.control_eq hpf hl.object_eq hf, happ]
      rfl
    have hhost := host_deregister_ok hr hrem
    refine ⟨_, hl.change hframe (fun fd => by rw [hhost, Host.object?_note]) (hl.ne_systemToken hr)
      (get?_deregister l token) (fun w => ?_) ?_ ?_ hwf⟩
    · rw [List.mem_filter, bne_iff_ne]
      constructor
      · rintro ⟨hw', hd⟩
        exact Or.inr ⟨hw', fun ht => hd ((hl.token_eq_iff hr hfd hw').mp ht)⟩
      · rintro (⟨r', hr', -⟩ | ⟨hw', ht⟩)
        · cases hr'
        · exact ⟨hw', fun hd => ht ((hl.token_eq_iff hr hfd hw').mpr hd)⟩
    · exact hl.nodup.sublist (List.filter_sublist.map _)
    · intro r' hr'
      cases hr'

/-- What leaves a loop undisturbed leaves what is watched as it was. -/
theorem elsewhere (hl : l.Mirrored p bell watches) (hu : l.Undisturbed l') :
    l'.Mirrored p bell watches where
  poller_eq := by rw [hu.poller_eq]; exact hl.poller_eq
  bell_eq := by rw [hu.bell_eq]; exact hl.bell_eq
  object_eq := by
    have h := hu.multiplexer_eq
    rw [hl.poller_eq, Host.objectOf?_some, Host.objectOf?_some] at h
    rw [h]
    exact hl.object_eq
  mem_iff w := by
    unfold CallsFor
    rw [hu.bell_eq, hu.table_eq]
    exact hl.mem_iff w
  nodup := hl.nodup
  watchable w hw := by
    obtain ⟨hp, hwatch⟩ := hl.watchable w hw
    refine ⟨hp, hu.kept _ ?_ hwatch⟩
    rcases (hl.mem_iff w).mp hw with ⟨hb, -, -⟩ | ⟨r, hr, hd, -⟩
    · exact Or.inl hb
    · exact Or.inr ⟨w.token, r, hr, hd⟩
  descriptor_some := by rw [hu.table_eq]; exact hl.descriptor_some
  vacant := by rw [hu.table_eq]; exact hl.vacant
  wellFormed := by rw [hu.table_eq]; exact hl.wellFormed

end Mirrored

/-! ### Every state -/

namespace Registering

variable {config : Config} {l : Loop}

/-- **Table and multiplexer agree in every reachable state.** -/
theorem mirrored (hl : Registering config l) : ∃ p bell watches, l.Mirrored p bell watches := by
  induction hl with
  | init hs =>
    obtain ⟨htable, p, bell, hp, hbell, hne, hwatch, hobj⟩ := System.init_ok hs
    refine ⟨p, bell, _, hp, hbell, hobj, fun w => ?_, List.nodup_singleton _, ?_, ?_, ?_, ?_⟩
    · rw [List.mem_singleton]
      unfold CallsFor
      simp only [htable, Slab.get?_empty, hbell]
      constructor
      · rintro rfl
        exact Or.inl ⟨rfl, rfl, rfl⟩
      · rintro (⟨hd, ht, hm⟩ | ⟨r, hr, -⟩)
        · exact Watch.eq_mk hd ht hm
        · cases hr
    · intro w hw
      rw [List.mem_singleton.mp hw]
      exact ⟨hne, hwatch⟩
    · intro token r hr
      rw [htable, Slab.get?_empty] at hr
      cases hr
    · rw [htable, Slab.get?_empty]
    · rw [htable]
      exact Slab.WellFormed.of_empty _ _
  | register fd i _ ih =>
    obtain ⟨p, bell, watches, hm⟩ := ih
    exact ⟨p, bell, hm.register fd i⟩
  | registerAt fd token i _ ih =>
    obtain ⟨p, bell, watches, hm⟩ := ih
    exact ⟨p, bell, hm.registerAt fd token i⟩
  | reregister token i _ ih =>
    obtain ⟨p, bell, watches, hm⟩ := ih
    exact ⟨p, bell, hm.reregister token i⟩
  | deregister token _ ih =>
    obtain ⟨p, bell, watches, hm⟩ := ih
    exact ⟨p, bell, hm.deregister token⟩
  | elsewhere hu _ ih =>
    obtain ⟨p, bell, watches, hm⟩ := ih
    exact ⟨p, bell, watches, hm.elsewhere hu⟩

/-- The ceiling on registrations never changes. -/
theorem policy_eq (hl : Registering config l) : l.system.table.policy = config.capacity := by
  induction hl with
  | init hs => rw [(System.init_ok hs).1]; rfl
  | register fd i _ ih => rw [(sameFrame_register _ fd i).policy_eq, ih]
  | registerAt fd token i _ ih => rw [(sameFrame_registerAt _ fd token i).policy_eq, ih]
  | reregister token i _ ih => rw [(sameFrame_reregister _ token i).policy_eq, ih]
  | deregister token _ ih => rw [(sameFrame_deregister _ token).policy_eq, ih]
  | elsewhere hu _ ih => rw [hu.table_eq, ih]

/-- **The multiplexer watches exactly what is registered**: the bell under its own token, and
each registered descriptor under its token and with its interest, once.  Every registration
has a descriptor, of its own; the loop's own token is never registered; and the table never
outgrows its ceiling. -/
theorem watches_spec (hl : Registering config l) :
    (∃ bell, l.system.control.bell.descriptor = some bell) ∧
    (∀ w, w ∈ l.host.watches l.system.poller.descriptor ↔ l.CallsFor w) ∧
    ((l.host.watches l.system.poller.descriptor).map (·.descriptor)).Nodup ∧
    (∀ token r, l.system.table.get? token = some r → ∃ fd, r.descriptor = some fd) ∧
    (∀ t₁ t₂ r₁ r₂, l.system.table.get? t₁ = some r₁ → l.system.table.get? t₂ = some r₂ →
      t₁ ≠ t₂ → r₁.descriptor ≠ r₂.descriptor) ∧
    l.system.table.get? systemToken = none ∧
    (∀ n, config.capacity = .bounded n →
      l.system.table.entries.length ≤ n ∧ l.system.registered ≤ n) := by
  obtain ⟨p, bell, watches, hm⟩ := hl.mirrored
  have hw : l.host.watches l.system.poller.descriptor = watches := by
    rw [hm.poller_eq, Host.watches_eq hm.object_eq]
  rw [hw]
  refine ⟨⟨bell, hm.bell_eq⟩, hm.mem_iff, hm.nodup, hm.descriptor_some, ?_, hm.vacant, ?_⟩
  · intro t₁ t₂ r₁ r₂ h₁ h₂ hne heq
    exact hne (hm.token_eq_of_descriptor_eq h₁ h₂ heq)
  · intro n hn
    have hle := hm.wellFormed.length_entries_le (hl.policy_eq.trans hn)
    refine ⟨hle, ?_⟩
    rw [System.registered, Slab.size, ← hm.wellFormed.length_entries_eq]
    exact hle

/-- Room for one registration. -/
def small : Config := { Config.standard .live with capacity := .bounded 1 }

/-- A host with one counter, under descriptor 0. -/
def smallHost : Host :=
  { Host.initial .silent with descriptors := #[some (.counter .zero)] }

/-- A new loop on it. -/
def smallStart : Loop where
  host := (System.init small smallHost).2
  system := (System.init small smallHost).1.toOption.getD .absent

/-- The loop after a registration, a refusal by the table, and a change of interest. -/
def smallRun : Loop :=
  (((smallStart.registerAt (some 0) 5 .readable).2.register (some 0) .writable).2.reregister 5
    .both).2

theorem watches_spec_smallRun : Registering small smallRun ∧
    smallRun.host.watches smallRun.system.poller.descriptor
      = [⟨2, systemToken, Interest.readable.mask⟩, ⟨0, 5, Interest.both.mask⟩] ∧
    smallRun.CallsFor ⟨0, 5, Interest.both.mask⟩ ∧ smallRun.system.registered ≤ 1 := by
  have hrun : Registering small smallRun :=
    .reregister 5 .both (.register (some 0) .writable (.registerAt (some 0) 5 .readable
      (.init (h := smallHost) rfl)))
  have hw : smallRun.host.watches smallRun.system.poller.descriptor
      = [⟨2, systemToken, Interest.readable.mask⟩, ⟨0, 5, Interest.both.mask⟩] := by
    decide +kernel
  obtain ⟨-, hmem, -, -, -, -, hcap⟩ := watches_spec hrun
  refine ⟨hrun, hw, (hmem _).mp ?_, (hcap 1 rfl).2⟩
  rw [hw]
  exact List.mem_cons_of_mem _ List.mem_cons_self

end Registering

end Loop
end EventLoop

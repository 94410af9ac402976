import EventLoop.Proofs.Evented.Rack
import EventLoop.Proofs.Registration.Watching
import EventLoop.Proofs.Slab.FiniteMap
import Mathlib.Data.Set.Card

/-!
# Who owns the tokens of a loop

If all registrations of a loop go through evented resources, then the tokens in
its table are the tokens the resources hold, and each has one holder.  A token
leaves the table in one way only: its holder gives it back, or goes, or is
replaced, and holds nothing from then on.  What the multiplexer says to any of
this makes no difference.

## Main definitions

* `Rack.Alone` — nothing registers with the loop past the rack.
* `Rack.Act.Ends`, `Rack.Act.Empties` — the place whose holder gives its token back,
  or has it taken along.
* `Rack.Owned` — the invariant.

## Main results

* `Rack.Owned.freed_iff` — **a token leaves the table when its holder ends, and
  only then.**
* `Rack.Reachable.ownership_spec` — tokens and registered resources match one to one
  in every reachable state.
-/

namespace EventLoop

variable {ι : Type}

/-! ### One resource -/

/-- A token that was given back is free. -/
theorem Transfer.vacant {l l' : Loop} {token : Token} {d : Option Nat}
    (h : Transfer l l' (some (token, d)) none) : l'.lodged token = none := by
  cases h with
  | give h => rw [h, if_pos rfl]

namespace Evented

variable [Pollable ι] {e : Evented ι} {l : Loop}

/-- The system after a registration is the one before, or has served the request. -/
theorem system_registerAt (e : Evented ι) (token : Token) (l : Loop) :
    (e.registerAt token l).2.2 = l ∨ (e.registerAt token l).2.2
      = (l.registerAt (Pollable.descriptor e.inner) token e.interest).2 := by
  unfold registerAt
  cases e.token with
  | some t => exact Or.inl rfl
  | none =>
    refine Or.inr ?_
    dsimp only
    rcases l.registerAt (Pollable.descriptor e.inner) token e.interest with ⟨r, l'⟩
    cases r <;> rfl

omit [Pollable ι] in
theorem wellFormed_deregister (hl : l.system.table.WellFormed) (e : Evented ι) :
    (e.deregister l).2.2.system.table.WellFormed := by
  unfold deregister
  cases e.token with
  | none => exact hl
  | some token => exact Loop.wellFormed_deregister hl token

theorem wellFormed_drop (hl : l.system.table.WellFormed) (e : Evented ι) :
    (e.drop l).system.table.WellFormed := by
  rw [system_drop]
  exact wellFormed_deregister hl e

namespace Use

theorem wellFormed_run (hl : l.system.table.WellFormed) (u : Use ι) (e : Evented ι) :
    (u.run e l).2.system.table.WellFormed := by
  have hat : ∀ token, (e.registerAt token l).2.2.system.table.WellFormed := by
    intro token
    rcases system_registerAt e token l with h | h
    · rw [h]
      exact hl
    · rw [h]
      exact Loop.wellFormed_registerAt hl _ token _
  cases u with
  | register =>
    show (e.register l).2.2.system.table.WellFormed
    rw [register_eq]
    exact hat _
  | registerAt token => exact hat token
  | reregister i =>
    show (e.reregister i l).2.2.system.table.WellFormed
    rcases e.reregister_cases i l with ⟨-, h⟩ | ⟨token, -, h⟩
    · rw [h]
      exact hl
    · rcases h with ⟨l', hr, h⟩ | ⟨f, -, h⟩
      · have hwf := Loop.wellFormed_reregister hl token i
        rw [hr] at hwf
        rw [h]
        exact hwf
      · rw [h]
        exact hl
  | deregister => exact wellFormed_deregister hl e
  | accept event =>
    show (e.accept event l).2.2.system.table.WellFormed
    rcases e.accept_cases event l with ⟨h, -⟩ | ⟨-, -, -, h | ⟨f, -, h⟩⟩
    · rw [h]
      exact hl
    · have hwf := Loop.wellFormed_reregister hl event.token e.interest
      rw [h] at hwf
      exact hwf
    · rw [h]
      exact hl
  | read v r => exact hl
  | write v r =>
    show (({ e with inner := v } : Evented ι).afterWrite r l).2.2.system.table.WellFormed
    rcases afterWrite_cases { e with inner := v } r l with ⟨h, -⟩ | ⟨token, -, -, h⟩
    · rw [h]
      exact hl
    · rcases h with ⟨h, -⟩ | ⟨g, -, h, -⟩
      · have hwf := Loop.wellFormed_reregister hl token (e.interest.union .writable)
        rw [h] at hwf
        exact hwf
      · rw [h]
        exact hl

/-- Whoever holds a token keeps it, unless it gives it back. -/
theorem token_run {u : Use ι} (hu : u ≠ .deregister) {token : Token} (ht : e.token = some token)
    (l : Loop) : (u.run e l).1.token = some token := by
  cases u with
  | register =>
    show (e.register l).2.1.token = _
    unfold Evented.register
    rw [ht]
    exact ht
  | registerAt t =>
    show (e.registerAt t l).2.1.token = _
    unfold Evented.registerAt
    rw [ht]
    exact ht
  | reregister i =>
    show (e.reregister i l).2.1.token = _
    rcases e.reregister_cases i l with ⟨-, h⟩ | ⟨t, -, ⟨l', -, h⟩ | ⟨f, -, h⟩⟩
    · rw [h]
      exact ht
    · rw [h]
      exact ht
    · rw [h]
      exact ht
  | deregister => exact absurd rfl hu
  | accept event =>
    rcases e.accept_cases event l with ⟨-, h, -⟩ | ⟨-, -, h, -⟩
    · exact h.token_eq.trans ht
    · exact h.token_eq.trans ht
  | read v r => exact (sameSetting_afterRead { e with inner := v } r).token_eq.trans ht
  | write v r =>
    rcases afterWrite_cases { e with inner := v } r l with ⟨-, h, -⟩ |
      ⟨t, -, -, ⟨-, h, -⟩ | ⟨g, -, -, h, -⟩⟩
    · exact h.token_eq.trans ht
    · exact h.token_eq.trans ht
    · exact h.token_eq.trans ht

end Use

end Evented

/-! ### All of them -/

namespace Rack

/-- The place whose holder gives its token back. -/
def Act.Ends : Act ι → Nat → Prop
  | .use n .deregister, k => k = n
  | .assign source target, k => source ≠ target ∧ k = target
  | .dismiss n, k => k = n
  | _, _ => False

/-- The place whose holder goes elsewhere. -/
def Act.Empties : Act ι → Nat → Prop
  | .move source _, k => k = source
  | .assign source target, k => source ≠ target ∧ k = source
  | _, _ => False

variable [Pollable ι]

/-- Nothing registers with the loop past the rack. -/
def Alone (s : Rack ι) (a : Act ι) : Prop :=
  s.Fits a ∧ ∀ l, a = .elsewhere l → l.system.table = s.loop.system.table

/-- The tokens in the table are held, and each by one. -/
structure Owned (s : Rack ι) : Prop where
  wellFormed : s.loop.system.table.WellFormed
  tenancy : Tenancy s.holding s.loop
  allHeld : AllHeld s.holding s.loop

variable {s : Rack ι}

theorem holding_eq_some_iff {n : Nat} {token : Token} {d : Option Nat} :
    s.holding n = some (token, d) ↔ ∃ e, s.place n = some e ∧ e.token = some token ∧
      Pollable.descriptor e.inner = d := by
  unfold holding
  rw [Option.bind_eq_some_iff]
  constructor
  · rintro ⟨e, he, hh⟩
    exact ⟨e, he, Evented.holding_eq_some_iff.mp hh⟩
  · rintro ⟨e, he, hh⟩
    exact ⟨e, he, Evented.holding_eq_some_iff.mpr hh⟩

/-! ### Where a token goes -/

/-- Whoever holds a token and does not end holds it afterwards, there or elsewhere. -/
theorem exists_place_act {a : Act ι} (ha : s.Fits a) {n : Nat} {e : Evented ι}
    (he : s.place n = some e) {token : Token} (ht : e.token = some token) (hends : ¬a.Ends n) :
    ∃ k e', (s.act a).place k = some e' ∧ e'.token = some token := by
  cases a with
  | bring m v i =>
    have hne : n ≠ m := by
      rintro rfl
      cases he.symm.trans ha
    exact ⟨n, e, (place_put_of_ne hne).trans he, ht⟩
  | use m u =>
    obtain ⟨e', he', -⟩ := ha
    rw [act_use, use_eq he' u]
    by_cases hmn : n = m
    · subst hmn
      cases he.symm.trans he'
      have hu : u ≠ .deregister := by
        rintro rfl
        exact hends rfl
      exact ⟨n, _, place_put_self, u.token_run hu ht s.loop⟩
    · exact ⟨n, e, (place_put_of_ne hmn).trans he, ht⟩
  | move m k =>
    obtain ⟨e', he'⟩ := ha.1
    rw [act_move, move_eq he' k]
    by_cases hmn : n = m
    · subst hmn
      cases he.symm.trans he'
      exact ⟨k, e, place_put_self, ht⟩
    -- the place moved to was vacant
    · have hnk : n ≠ k := by
        rintro rfl
        cases he.symm.trans ha.2
      exact ⟨n, e, (place_put_of_ne hnk).trans ((place_put_of_ne hmn).trans he), ht⟩
  | assign m k =>
    by_cases hmk : m = k
    · rw [hmk, act_assign, assign_self]
      exact ⟨n, e, he, ht⟩
    · obtain ⟨e', he'⟩ := ha.1
      obtain ⟨old, hold⟩ := ha.2
      rw [act_assign, assign_eq he' hold hmk]
      by_cases hmn : n = m
      · subst hmn
        cases he.symm.trans he'
        exact ⟨k, e, place_put_self, ht⟩
      · have hnk : n ≠ k := fun h => hends ⟨hmk, h⟩
        exact ⟨n, e, (place_put_of_ne hnk).trans ((place_put_of_ne hmn).trans he), ht⟩
  | dismiss m =>
    obtain ⟨e', he'⟩ := ha
    rw [act_dismiss, dismiss_eq he']
    exact ⟨n, e, (place_put_of_ne fun h => hends h).trans he, ht⟩
  | elsewhere l => exact ⟨n, e, he, ht⟩

/-- The token of a holder that ends is free afterwards. -/
theorem lodged_act_of_ends {a : Act ι} (ha : s.Fits a) {n : Nat} {e : Evented ι}
    (he : s.place n = some e) {token : Token} (ht : e.token = some token) (hends : a.Ends n) :
    (s.act a).loop.lodged token = none := by
  have hholding : e.holding = some (token, Pollable.descriptor e.inner) :=
    Evented.holding_eq_some_iff.mpr ⟨ht, rfl⟩
  -- dropping the holder gives its token back
  have hdrop := e.transfer_drop s.loop
  rw [hholding] at hdrop
  cases a with
  | use m u =>
    cases u with
    | deregister =>
      cases hends
      have htr := e.transfer_deregister s.loop
      rw [hholding] at htr
      rw [act_use, use_eq he .deregister]
      exact htr.vacant
    | _ => cases hends
  | assign m k =>
    obtain ⟨hmk, rfl⟩ := hends
    obtain ⟨e', he'⟩ := ha.1
    rw [act_assign, assign_eq he' he hmk]
    exact hdrop.vacant
  | dismiss m =>
    cases hends
    rw [act_dismiss, dismiss_eq he]
    exact hdrop.vacant
  | bring m v i => cases hends
  | move m k => cases hends
  | elsewhere l => cases hends

/-- What is left where a resource went away holds nothing. -/
theorem token_act_of_empties {a : Act ι} (ha : s.Fits a) {n : Nat} (hempties : a.Empties n)
    {e : Evented ι} (he : (s.act a).place n = some e) : e.token = none := by
  cases a with
  | move m k =>
    cases hempties
    obtain ⟨e', he'⟩ := ha.1
    have hnk : n ≠ k := by
      rintro rfl
      cases he'.symm.trans ha.2
    rw [act_move, move_eq he' k, place_put_of_ne hnk, place_put_self] at he
    cases he
    rfl
  | assign m k =>
    obtain ⟨hmk, rfl⟩ := hempties
    obtain ⟨e', he'⟩ := ha.1
    obtain ⟨old, hold⟩ := ha.2
    rw [act_assign, assign_eq he' hold hmk, place_put_of_ne hmk, place_put_self] at he
    cases he
    rfl
  | _ => cases hempties

namespace Owned

theorem act (hs : s.Owned) {a : Act ι} (ha : s.Alone a) : (s.act a).Owned := by
  obtain ⟨hfits, htable⟩ := ha
  by_cases helse : ∀ l, a ≠ .elsewhere l
  · have hshift := shift_act hfits helse
    refine ⟨?_, hshift.tenancy hs.tenancy, hshift.allHeld hs.allHeld⟩
    -- the table changes with one resource, or not at all
    cases a with
    | bring n v i => exact hs.wellFormed
    | use n u =>
      obtain ⟨e, he, -⟩ := hfits
      rw [act_use, use_eq he u]
      exact u.wellFormed_run hs.wellFormed e
    | move m n =>
      obtain ⟨e, he⟩ := hfits.1
      rw [act_move, move_eq he n]
      exact hs.wellFormed
    | assign m n =>
      by_cases hmn : m = n
      · rw [hmn, act_assign, assign_self]
        exact hs.wellFormed
      · obtain ⟨e, he⟩ := hfits.1
        obtain ⟨old, hold⟩ := hfits.2
        rw [act_assign, assign_eq he hold hmn]
        exact old.wellFormed_drop hs.wellFormed
    | dismiss n =>
      obtain ⟨e, he⟩ := hfits
      rw [act_dismiss, dismiss_eq he]
      exact e.wellFormed_drop hs.wellFormed
    | elsewhere l => exact absurd rfl (helse l)
  · push Not at helse
    obtain ⟨l, rfl⟩ := helse
    have ht := htable l rfl
    have hlodged : ∀ j, l.lodged j = s.loop.lodged j := fun j => by
      unfold Loop.lodged
      rw [ht]
    refine ⟨?_, hs.tenancy.congr hlodged, fun token d hd => hs.allHeld token d ?_⟩
    · show l.system.table.WellFormed
      rw [ht]
      exact hs.wellFormed
    · rw [← hlodged]
      exact hd

/-- The tokens in the table are those that are held. -/
theorem isRegistered_iff (hs : s.Owned) {token : Token} : s.loop.system.isRegistered token = true ↔
    ∃ n e, s.place n = some e ∧ e.token = some token := by
  rw [Loop.isRegistered_iff]
  constructor
  · rintro ⟨d, hd⟩
    obtain ⟨n, hn⟩ := hs.allHeld token d hd
    obtain ⟨e, he, ht, -⟩ := holding_eq_some_iff.mp hn
    exact ⟨n, e, he, ht⟩
  · rintro ⟨n, e, he, ht⟩
    exact ⟨_, hs.tenancy.held n token _ (holding_eq_some_iff.mpr ⟨e, he, ht, rfl⟩)⟩

theorem place_unique (hs : s.Owned) {m n : Nat} {e e' : Evented ι} {token : Token}
    (hm : s.place m = some e) (hn : s.place n = some e') (ht : e.token = some token)
    (ht' : e'.token = some token) : m = n :=
  hs.tenancy.unique m n token _ _ (holding_eq_some_iff.mpr ⟨e, hm, ht, rfl⟩)
    (holding_eq_some_iff.mpr ⟨e', hn, ht', rfl⟩)

/-- There are as many registrations as registered resources. -/
theorem encard_eq (hs : s.Owned) :
    {n | ∃ e, s.place n = some e ∧ e.token.isSome = true}.encard = s.loop.system.registered := by
  classical
  -- the tokens of the registered resources are the keys of the table
  let tokenOf : Nat → Token := fun n => ((s.place n).bind Evented.token).getD 0
  have htok : ∀ {n e token}, s.place n = some e → e.token = some token → tokenOf n = token := by
    intro n e token he ht
    show ((s.place n).bind Evented.token).getD 0 = token
    rw [he, Option.bind_some, ht, Option.getD_some]
  have hinj : Set.InjOn tokenOf {n | ∃ e, s.place n = some e ∧ e.token.isSome = true} := by
    rintro m ⟨e, he, hse⟩ n ⟨e', he', hse'⟩ heq
    obtain ⟨t, ht⟩ := Option.isSome_iff_exists.mp hse
    obtain ⟨t', ht'⟩ := Option.isSome_iff_exists.mp hse'
    rw [htok he ht, htok he' ht'] at heq
    exact hs.place_unique he he' ht (heq ▸ ht')
  have himage : tokenOf '' {n | ∃ e, s.place n = some e ∧ e.token.isSome = true}
      = ↑s.loop.system.table.keys.toFinset := by
    ext token
    rw [Finset.mem_coe, List.mem_toFinset, Slab.mem_keys_iff]
    show _ ↔ s.loop.system.isRegistered token = true
    rw [hs.isRegistered_iff]
    constructor
    · rintro ⟨n, ⟨e, he, hse⟩, rfl⟩
      obtain ⟨t, ht⟩ := Option.isSome_iff_exists.mp hse
      exact ⟨n, e, he, by rw [htok he ht, ht]⟩
    · rintro ⟨n, e, he, ht⟩
      exact ⟨n, ⟨e, he, by rw [ht]; rfl⟩, htok he ht⟩
  rw [← hinj.encard_image, himage, Set.encard_coe_eq_coe_finsetCard,
    List.toFinset_card_of_nodup (Slab.keys_nodup _), Slab.keys, List.length_map,
    hs.wellFormed.length_entries_eq]
  rfl

/-- **A token leaves the table when its holder ends, and only then.** -/
theorem freed_iff (hs : s.Owned) {a : Act ι} (ha : s.Alone a) {token : Token} :
    (s.loop.system.isRegistered token = true ∧ (s.act a).loop.system.isRegistered token = false) ↔
      ∃ n e, a.Ends n ∧ s.place n = some e ∧ e.token = some token := by
  constructor
  · rintro ⟨hbefore, hafter⟩
    obtain ⟨n, e, he, ht⟩ := hs.isRegistered_iff.mp hbefore
    refine ⟨n, e, ?_, he, ht⟩
    by_contra hends
    -- then somebody holds it afterwards, and it is still in the table
    obtain ⟨k, e', hk, ht'⟩ := exists_place_act ha.1 he ht hends
    rw [(hs.act ha).isRegistered_iff.mpr ⟨k, e', hk, ht'⟩] at hafter
    cases hafter
  · rintro ⟨n, e, hends, he, ht⟩
    refine ⟨hs.isRegistered_iff.mpr ⟨n, e, he, ht⟩, ?_⟩
    rw [Loop.isRegistered_eq_false_iff]
    exact lodged_act_of_ends ha.1 he ht hends

end Owned

namespace Reachable

theorem owned (hs : Reachable Alone s) : s.Owned := by
  -- on the acts: a new system has no tokens, and each act moves at most one
  induction hs with
  | start hs =>
    obtain ⟨ht, -⟩ := System.init_ok hs
    refine ⟨?_, ⟨(fun n token d h => nomatch h), (fun m n token d d' h => nomatch h)⟩,
      fun token d hd => ?_⟩
    · show Slab.WellFormed _
      rw [ht]
      exact .of_empty 0 _
    · obtain ⟨r, hr, -⟩ := Loop.lodged_eq_some_iff.mp hd
      dsimp only at hr
      rw [ht, Slab.get?_empty] at hr
      cases hr
  | act a ha _ ih => exact ih.act ha

/-- **Tokens and registered resources match one to one.**  A token that is held is in the
table, for the descriptor of its holder; no other holds it, and no other token is in the table.
A token leaves the table when its holder ends, and only then; what is left of a resource that
went elsewhere holds nothing; and where nothing stands any more, nothing is registered. -/
theorem ownership_spec (hs : Reachable Alone s) :
    (∀ n e token, s.place n = some e → e.token = some token →
      s.loop.lodged token = some (Pollable.descriptor e.inner)) ∧
    (∀ m n e e' token, s.place m = some e → s.place n = some e' → e.token = some token →
      e'.token = some token → m = n) ∧
    (∀ token, s.loop.system.isRegistered token = true ↔
      ∃ n e, s.place n = some e ∧ e.token = some token) ∧
    {n | ∃ e, s.place n = some e ∧ e.token.isSome = true}.encard = s.loop.system.registered ∧
    (∀ a, s.Alone a → ∀ token,
      (s.loop.system.isRegistered token = true ∧
        (s.act a).loop.system.isRegistered token = false) ↔
      ∃ n e, a.Ends n ∧ s.place n = some e ∧ e.token = some token) ∧
    (∀ a, s.Alone a → ∀ n, a.Empties n → ∀ e, (s.act a).place n = some e → e.token = none) ∧
    ((∀ n, s.place n = none) → s.loop.system.registered = 0) := by
  have howned := hs.owned
  refine ⟨fun n e token he ht => ?_, fun m n e e' token hm hn ht ht' => ?_,
    fun token => howned.isRegistered_iff, howned.encard_eq, fun a ha token => howned.freed_iff ha,
    fun a ha n hn e he => token_act_of_empties ha.1 hn he, fun hempty => ?_⟩
  · exact howned.tenancy.held n token _ (holding_eq_some_iff.mpr ⟨e, he, ht, rfl⟩)
  · exact howned.place_unique hm hn ht ht'
  · have hcard := howned.encard_eq
    have hnone : {n | ∃ e, s.place n = some e ∧ e.token.isSome = true} = ∅ := by
      ext n
      constructor
      · rintro ⟨e, he, -⟩
        rw [hempty n] at he
        cases he
      · exact fun h => nomatch h
    rw [hnone, Set.encard_empty] at hcard
    exact_mod_cast hcard.symm

/-! ### A run -/

/-- A host with two counters, under descriptors 0 and 1. -/
def twoCounters : Host :=
  { Host.initial .silent with descriptors := #[some (.counter .zero), some (.counter .zero)] }

/-- Nothing stands anywhere yet, and the loop is new. -/
def bareRack : Rack (Notifier ⊕ Socket) where
  place _ := none
  story _ := []
  loop :=
    { host := (System.init (.standard .live) twoCounters).2
      system := (System.init (.standard .live) twoCounters).1.toOption.getD .absent }

/-- Two flags are registered, one of them in vain, and a stream under a token of the caller's
choice. -/
def filledRack : Rack (Notifier ⊕ Socket) :=
  (((((bareRack.act (.bring 0 (.inl ⟨some 0⟩) .readable)).act (.use 0 .register)).act
    (.bring 1 (.inl .hollow) .readable)).act (.use 1 .register)).act
    (.bring 2 (.inr ⟨.unix, some 1⟩) .both)).act (.use 2 (.registerAt 7))

theorem filledRack_reachable : Reachable Alone filledRack := by
  have hstart : Reachable Alone bareRack := .start (h := twoCounters) rfl
  have hzero := hstart.act (.bring 0 (.inl ⟨some 0⟩) .readable) ⟨rfl, fun l h => nomatch h⟩
  have hzero' := hzero.act (.use 0 .register) ⟨⟨_, rfl, trivial⟩, fun l h => nomatch h⟩
  have hone := hzero'.act (.bring 1 (.inl .hollow) .readable) ⟨rfl, fun l h => nomatch h⟩
  have hone' := hone.act (.use 1 .register) ⟨⟨_, rfl, trivial⟩, fun l h => nomatch h⟩
  have htwo := hone'.act (.bring 2 (.inr ⟨.unix, some 1⟩) .both) ⟨rfl, fun l h => nomatch h⟩
  exact htwo.act (.use 2 (.registerAt 7)) ⟨⟨_, rfl, trivial⟩, fun l h => nomatch h⟩

/-- The stream takes the place of the flag that is registered: the token of the flag is free
then, and the stream is the only one that is registered. -/
theorem ownership_spec_filledRack :
    filledRack.loop.system.isRegistered 0 = true ∧ filledRack.Alone (.assign 2 0) ∧
    (filledRack.act (.assign 2 0)).loop.system.isRegistered 0 = false ∧
    {n | ∃ e, (filledRack.act (.assign 2 0)).place n = some e ∧ e.token.isSome = true}.encard
      = 1 ∧
    ∀ e, (filledRack.act (.assign 2 0)).place 2 = some e → e.token = none := by
  have hrun := filledRack_reachable
  have hheld : ∃ e, filledRack.place 0 = some e ∧ e.token = some 0 := ⟨_, rfl, by decide +kernel⟩
  have halone : filledRack.Alone (.assign 2 0) :=
    ⟨⟨⟨_, rfl⟩, ⟨_, rfl⟩⟩, fun l h => nomatch h⟩
  obtain ⟨e, he, ht⟩ := hheld
  obtain ⟨-, -, -, -, hfreed, hempties, -⟩ := hrun.ownership_spec
  obtain ⟨hbefore, hafter⟩ :=
    (hfreed (.assign 2 0) halone 0).mpr ⟨0, e, ⟨by decide, rfl⟩, he, ht⟩
  obtain ⟨-, -, -, hcard, -⟩ := (hrun.act (.assign 2 0) halone).ownership_spec
  refine ⟨hbefore, halone, hafter, ?_, hempties (.assign 2 0) halone 2 ⟨by decide, rfl⟩⟩
  rw [hcard]
  have hone : (filledRack.act (.assign 2 0)).loop.system.registered = 1 := by decide +kernel
  rw [hone]
  rfl

end Reachable
end Rack
end EventLoop

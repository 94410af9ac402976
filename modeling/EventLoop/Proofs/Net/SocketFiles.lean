import EventLoop.Proofs.Net.Naming
import Mathlib.Logic.Function.Basic

/-!
# Socket files and their listeners

A listener over a path makes a socket file when it is bound, and removes whatever
socket file is at its path when it goes.  It goes by the name, not by the file: if
somebody unlinks the file and another listener is bound to the same path, then the
file that the first one removes is that of the second.

So the file of a listener is safe from everything but three things: others who
unlink it, the end of the listener itself, and the end of an elder, a listener that
was bound to the same file before and lived on when the file was unlinked under it.
Binding never does any harm, whether it works out or not; and as long as nobody
unlinks the file of a listener that is there, there are no elders.

## Main definitions

* `Listeners` — places where listeners stand, on one host; `Listeners.Act` and
  `Listeners.act`, what can happen.
* `Listeners.Effect` — what an act does.
* `Listeners.Spares`, `Listeners.Spared` — acts that are none of the three things.
* `Listeners.Respectful` — nobody unlinks the file of a listener that is there.

## Main results

* `Listeners.place_carry`, `Listeners.origin`, `Listeners.isFile_act` — where a listener is after
  an act, where it was before, and which files stay.
* `Listeners.Guarded.act` — **an act that spares a listener leaves it and its file in place.**
* `Listeners.Sound.act` — if no file is taken away from under a listener, then every listener has
  its file and is alone on it.
* `Listeners.socket_file_spec` — both, for every run.
-/

namespace EventLoop

/-! ### Places -/

/-- Listeners in their places, on one host. -/
structure Listeners where
  /-- Who stands in each place. -/
  place : Nat → Option Listener
  /-- The host. -/
  host : Host

namespace Listeners

/-- What can happen. -/
inductive Act
  /-- A listener is bound to a path, in a place of its own. -/
  | bind (n : Nat) (path : String)
  /-- A listener is made in a place from one that stands in another. -/
  | move (source target : Nat)
  /-- A listener takes the place of another. -/
  | assign (source target : Nat)
  /-- A listener goes. -/
  | drop (n : Nat)
  /-- Somebody else unlinks a path. -/
  | unlink (path : String)
  /-- Something else happens on the host. -/
  | elsewhere (h : Host)

/-- Somebody else stands in a place, and the host has changed. -/
def put (s : Listeners) (n : Nat) (o : Option Listener) (h : Host) : Listeners where
  place := Function.update s.place n o
  host := h

/-- What is left after an act.  One that does not fit does nothing: a listener can only be made in
a place where none stands, and only those that are there can go. -/
def act (s : Listeners) : Act → Listeners
  | .bind n path =>
    match s.place n, Listener.bindUnix path s.host with
    | none, (.ok t, h) => s.put n (some t) h
    | none, (.error _, h) => { s with host := h }
    | some _, _ => s
  | .move m n =>
    match s.place m, s.place n with
    | some t, none => (s.put m (some t.hollow) s.host).put n (some t) s.host
    | _, _ => s
  | .assign m n =>
    match s.place m, s.place n with
    | some t, some old =>
      if m = n then s
      else
        let (moved, rest, h) := old.assign t s.host
        (s.put m (some rest) h).put n (some moved) h
    | _, _ => s
  | .drop n =>
    match s.place n with
    | some t => s.put n none (t.close s.host)
    | none => s
  | .unlink path =>
    match s.host.unlink path with
    | .ok h => { s with host := h }
    | .error _ => s
  | .elsewhere h => { s with host := h }

/-- What is left after acts one after the other. -/
def run (s : Listeners) (acts : List Act) : Listeners := acts.foldl act s

/-- Where a listener is after an act. -/
def Act.carry (s : Listeners) : Act → Nat → Nat
  | .move m n, k => if k = m ∧ (s.place n).isNone then n else k
  | .assign m n, k => if k = m ∧ (s.place n).isSome then n else k
  | _, k => k

/-- Where a listener is after acts one after the other. -/
def carries (s : Listeners) : List Act → Nat → Nat
  | [], k => k
  | a :: acts, k => (s.act a).carries acts (a.carry s k)

/-- The file of the listener in a place is at this entry. -/
def On (s : Listeners) (n : Nat) (e : Entry) : Prop :=
  ∃ t, s.place n = some t ∧ Path.LeadsTo t.path e

/-- The listener in a place goes, or is replaced. -/
def Ends (s : Listeners) : Act → Nat → Prop
  | .assign m n, k => (s.place m).isSome = true ∧ m ≠ n ∧ k = n
  | .drop n, k => k = n
  | _, _ => False

/-- Somebody else takes a file away. -/
def Spoils (s : Listeners) : Act → Entry → Prop
  | .unlink path, e => Path.LeadsTo path e
  | .elsewhere h, e => s.host.isFile e = true ∧ h.isFile e = false
  | _, _ => False

variable {s : Listeners} {a : Act} {j k m n : Nat} {t : Listener} {e : Entry} {path : String}

/-! ### One act -/

section Put

variable {o : Option Listener} {h : Host}

@[simp] theorem place_put_self : (s.put n o h).place n = o := Function.update_self _ _ _

theorem place_put_of_ne (hm : m ≠ n) : (s.put n o h).place m = s.place m :=
  Function.update_of_ne hm _ _

end Put

/-- What an act does. -/
inductive Effect (s : Listeners) : Act → Listeners → Prop
  /-- Everybody stays, and so do the files but for those that somebody else takes away. -/
  | still {a : Act} {h : Host}
      (hstay : ∀ k t, s.place k = some t → a.carry s k = k ∧ ¬s.Ends a k)
      (hfile : ∀ e, s.host.isFile e = true → ¬s.Spoils a e → h.isFile e = true) :
      Effect s a { s with host := h }
  /-- A listener is bound. -/
  | bound {n : Nat} {path : String} {t : Listener} {h : Host} (hn : s.place n = none)
      (hb : Listener.bindUnix path s.host = (.ok t, h)) :
      Effect s (.bind n path) (s.put n (some t) h)
  /-- A listener moves.  Whoever stood where it goes ends, and takes at most its own file along. -/
  | moved {a : Act} {m n : Nat} {t : Listener} {h : Host} (hm : s.place m = some t) (hmn : m ≠ n)
      (hcarry : ∀ k, a.carry s k = if k = m then n else k)
      (hends : ∀ k, s.Ends a k ↔ k = n ∧ (s.place n).isSome = true)
      (hfile : ∀ e, s.host.isFile e = true → ¬s.On n e → h.isFile e = true) :
      Effect s a ((s.put m (some t.hollow) h).put n (some t) h)
  /-- A listener goes. -/
  | dropped {n : Nat} {t : Listener} (hn : s.place n = some t) :
      Effect s (.drop n) (s.put n none (t.close s.host))

/-- Nobody is bound where there is a file already. -/
theorem not_leadsTo_of_bindUnix {h h' : Host} (hb : Listener.bindUnix path h = (.ok t, h'))
    (hf : h.isFile e = true) : ¬Path.LeadsTo path e := by
  intro hp
  obtain ⟨-, ⟨hd, -⟩ | ⟨e', hleads, hfree, -⟩⟩ := Listener.isFile_bindUnix hb
  · exact Path.not_leadsTo_of_isDetached hd hp
  · rw [hp.unique hleads, hfree] at hf
    cases hf

/-- Binding removes no file. -/
theorem isFile_of_bindUnix {h h' : Host} (hb : Listener.bindUnix path h = (.ok t, h'))
    (hf : h.isFile e = true) : h'.isFile e = true := by
  obtain ⟨-, ⟨-, hsame⟩ | ⟨e', -, -, hnew⟩⟩ := Listener.isFile_bindUnix hb
  · rw [hsame]
    exact hf
  · exact (hnew e).mpr (Or.inl hf)

/-- **What an act can do.** -/
theorem effect_act (s : Listeners) (a : Act) : s.Effect a (s.act a) := by
  -- an act that cannot be carried out changes nothing
  have hidle : ∀ {a : Act}, (∀ k t, s.place k = some t → a.carry s k = k ∧ ¬s.Ends a k) →
      s.Effect a s := fun hstay => .still hstay fun e hf _ => hf
  cases a with
  | bind n path =>
    simp only [act]
    split
    next t h hn hb => exact .bound hn hb
    next f h hn hb =>
      -- a bind that failed binds no place, and takes back the file it made
      refine .still (fun _ _ _ => ⟨rfl, fun hends => hends⟩) fun e hf _ => ?_
      rw [Listener.isFile_bindUnix_error hb]
      exact hf
    next => exact hidle fun _ _ _ => ⟨rfl, fun hends => hends⟩
  | move m n =>
    simp only [act]
    split
    next t hm hn =>
      have hmn : m ≠ n := by
        rintro rfl
        cases hm.symm.trans hn
      refine .moved hm hmn (fun k => ?_) (fun k => ?_) fun e hf _ => hf
      · simp [Act.carry, hn]
      · simp [Ends, hn]
    next hnot =>
      refine hidle fun k t hk => ⟨if_neg ?_, fun hends => hends⟩
      rintro ⟨rfl, hn⟩
      exact hnot t hk (Option.isNone_iff_eq_none.mp hn)
  | assign m n =>
    simp only [act]
    split
    next t old hm hn =>
      split
      next hmn =>
        subst hmn
        refine hidle fun k t hk => ⟨ite_eq_right_iff.mpr fun h => h.1.symm, ?_⟩
        exact fun hends => hends.2.1 rfl
      next hmn =>
        refine .moved hm hmn (fun k => ?_) (fun k => ?_) fun e hf hon => ?_
        · simp [Act.carry, hn]
        · simp [Ends, hm, hn, hmn]
        · exact (Listener.isFile_close_iff old s.host e).mpr ⟨hf, fun hp => hon ⟨old, hn, hp⟩⟩
    next hnot =>
      refine hidle fun k t hk => ⟨if_neg ?_, ?_⟩
      · rintro ⟨rfl, hn⟩
        obtain ⟨old, hold⟩ := Option.isSome_iff_exists.mp hn
        exact hnot t old hk hold
      · rintro ⟨hm, -, rfl⟩
        obtain ⟨t', ht'⟩ := Option.isSome_iff_exists.mp hm
        exact hnot t' t ht' hk
  | drop n =>
    simp only [act]
    split
    next t hn => exact .dropped hn
    next hn =>
      refine hidle fun k t hk => ⟨rfl, ?_⟩
      rintro rfl
      cases hk.symm.trans hn
  | unlink path =>
    simp only [act]
    split
    next h hu =>
      exact .still (fun _ _ _ => ⟨rfl, fun hends => hends⟩) fun e hf hspared =>
        (Host.isFile_unlink_iff hu).mpr ⟨hf, hspared⟩
    next => exact hidle fun _ _ _ => ⟨rfl, fun hends => hends⟩
  | elsewhere h =>
    refine .still (fun _ _ _ => ⟨rfl, fun hends => hends⟩) fun e hf hspared => ?_
    cases hgone : h.isFile e with
    | true => rfl
    | false => exact absurd ⟨hf, hgone⟩ hspared

/-- What is left of a listener that moved away has no file. -/
theorem not_leadsTo_hollow (t : Listener) : ¬Path.LeadsTo t.hollow.path e := by
  rintro ⟨⟨p, hr, -⟩, -⟩
  cases hr

/-- **A listener that does not end is there afterwards.** -/
theorem place_carry (hk : s.place k = some t) (hends : ¬s.Ends a k) :
    (s.act a).place (a.carry s k) = some t := by
  have he := s.effect_act a
  generalize s.act a = s' at he
  cases he with
  | still hstay hfile =>
    rw [(hstay k t hk).1]
    exact hk
  | @bound n path t' h hn hb =>
    -- a bind takes a vacant place only
    have hkn : k ≠ n := by
      rintro rfl
      cases hk.symm.trans hn
    exact (place_put_of_ne hkn).trans hk
  | @moved _ m n t' h hm hmn hcarry hends' hfile =>
    rw [hcarry]
    by_cases hkm : k = m
    · subst hkm
      cases hk.symm.trans hm
      rw [if_pos rfl, place_put_self]
    · have hkn : k ≠ n := by
        rintro rfl
        exact hends ((hends' k).mpr ⟨rfl, by rw [hk]; rfl⟩)
      rw [if_neg hkm, place_put_of_ne hkn, place_put_of_ne hkm]
      exact hk
  | dropped hn => exact (place_put_of_ne hends).trans hk

/-- **A listener with a file was there before, or has just been bound.** -/
theorem origin (hk : (s.act a).place k = some t) (hp : Path.LeadsTo t.path e) :
    (∃ m, s.place m = some t ∧ a.carry s m = k ∧ ¬s.Ends a m) ∨
      ∃ path h, a = .bind k path ∧ s.place k = none ∧
        Listener.bindUnix path s.host = (.ok t, h) ∧ (s.act a).host = h := by
  have he := s.effect_act a
  generalize s.act a = s' at he hk
  cases he with
  | still hstay hfile => exact Or.inl ⟨k, hk, hstay k t hk⟩
  | @bound n path t' h hn hb =>
    by_cases hkn : k = n
    · subst hkn
      rw [place_put_self] at hk
      cases hk
      exact Or.inr ⟨path, h, rfl, hn, hb, rfl⟩
    · rw [place_put_of_ne hkn] at hk
      exact Or.inl ⟨k, hk, rfl, fun hends => hends⟩
  | @moved _ m n t' h hm hmn hcarry hends hfile =>
    by_cases hkn : k = n
    · subst hkn
      rw [place_put_self] at hk
      cases hk
      exact Or.inl ⟨m, hm, (hcarry m).trans (if_pos rfl), fun h => hmn ((hends m).mp h).1⟩
    · rw [place_put_of_ne hkn] at hk
      by_cases hkm : k = m
      · subst hkm
        rw [place_put_self] at hk
        cases hk
        -- what was moved from leads to no file
        exact absurd hp (not_leadsTo_hollow t')
      · rw [place_put_of_ne hkm] at hk
        exact Or.inl ⟨k, hk, (hcarry k).trans (if_neg hkm), fun h => hkn ((hends k).mp h).1⟩
  | @dropped n t' hn =>
    by_cases hkn : k = n
    · subst hkn
      rw [place_put_self] at hk
      cases hk
    · rw [place_put_of_ne hkn] at hk
      exact Or.inl ⟨k, hk, rfl, hkn⟩

/-- **A file stays** unless somebody else takes it away, or a listener that is on it ends. -/
theorem isFile_act (hf : s.host.isFile e = true) (hon : ∀ m, s.On m e → ¬s.Ends a m)
    (hspared : ¬s.Spoils a e) : (s.act a).host.isFile e = true := by
  have he := s.effect_act a
  generalize s.act a = s' at he
  cases he with
  | still hstay hfile => exact hfile e hf hspared
  | bound hn hb => exact isFile_of_bindUnix hb hf
  | @moved _ m n t h hm hmn hcarry hends hfile =>
    refine hfile e hf fun hn => ?_
    obtain ⟨old, hold, -⟩ := id hn
    exact hon n hn ((hends n).mpr ⟨rfl, by rw [hold]; rfl⟩)
  | @dropped n t hn =>
    exact (Listener.isFile_close_iff t s.host e).mpr ⟨hf, fun hp => hon n ⟨t, hn, hp⟩ rfl⟩

/-! ### A listener and its elders -/

/-- An act spares the listener in a place and its file: neither it nor any of its elders ends, and
nobody else takes the file away. -/
structure Spares (s : Listeners) (k : Nat) (e : Entry) (elders : Nat → Prop) (a : Act) : Prop where
  stays : ¬s.Ends a k
  elders_stay : ∀ m, elders m → ¬s.Ends a m
  file_stays : ¬s.Spoils a e

/-- Where the elders are after an act. -/
def Act.carryAll (s : Listeners) (a : Act) (elders : Nat → Prop) (j : Nat) : Prop :=
  ∃ m, elders m ∧ a.carry s m = j

/-- All acts spare the listener, wherever it is by then. -/
def Spared (s : Listeners) (k : Nat) (e : Entry) (elders : Nat → Prop) : List Act → Prop
  | [] => True
  | a :: acts =>
    s.Spares k e elders a ∧ (s.act a).Spared (a.carry s k) e (a.carryAll s elders) acts

/-- A listener stands in a place and its file is there; whoever else is on the file is an elder. -/
structure Guarded (s : Listeners) (k : Nat) (t : Listener) (e : Entry) (elders : Nat → Prop) :
    Prop where
  place : s.place k = some t
  leads : Path.LeadsTo t.path e
  file : s.host.isFile e = true
  others : ∀ m, m ≠ k → s.On m e → elders m

namespace Guarded

variable {elders : Nat → Prop}

/-- A listener that has just been bound: its elders are those that were on the file before. -/
theorem bind {h : Host} (hb : Listener.bindUnix path s.host = (.ok t, h)) (hp : Path.LeadsTo path e) :
    (s.put n (some t) h).Guarded n t e (s.On · e) := by
  obtain ⟨hpath, hcases⟩ := Listener.isFile_bindUnix hb
  have hleads : Path.LeadsTo t.path e := hpath ▸ hp
  refine ⟨place_put_self, hleads, ?_, fun m hm hon => ?_⟩
  · obtain ⟨hd, -⟩ | ⟨e', hp', -, hnew⟩ := hcases
    · exact absurd hp (Path.not_leadsTo_of_isDetached hd)
    · exact (hnew e).mpr (Or.inr (hp.unique hp'))
  · obtain ⟨t', ht', hp'⟩ := hon
    rw [place_put_of_ne hm] at ht'
    exact ⟨t', ht', hp'⟩

/-- **An act that spares a listener leaves it and its file in place.** -/
theorem act (hs : s.Guarded k t e elders) (ha : s.Spares k e elders a) :
    (s.act a).Guarded (a.carry s k) t e (a.carryAll s elders) where
  place := place_carry hs.place ha.stays
  leads := hs.leads
  file := by
    refine isFile_act hs.file (fun m hm => ?_) ha.file_stays
    by_cases hmk : m = k
    · rw [hmk]
      exact ha.stays
    · exact ha.elders_stay m (hs.others m hmk hm)
  others := by
    rintro j hj ⟨t', ht', hp'⟩
    obtain ⟨m, hm, rfl, -⟩ | ⟨path', h, rfl, -, hb, -⟩ := origin ht' hp'
    · have hmk : m ≠ k := by
        rintro rfl
        exact hj rfl
      exact ⟨m, hs.others m hmk ⟨t', hm, hp'⟩, rfl⟩
    · -- nobody can be bound to the file while it is there
      rw [(Listener.isFile_bindUnix hb).1] at hp'
      exact absurd hp' (not_leadsTo_of_bindUnix hb hs.file)

theorem run (acts : List Act) : ∀ {s : Listeners} {k : Nat} {elders : Nat → Prop},
    s.Guarded k t e elders → s.Spared k e elders acts →
      ∃ elders', (s.run acts).Guarded (s.carries acts k) t e elders' := by
  induction acts with
  | nil =>
    intro s k elders hs _
    exact ⟨elders, hs⟩
  | cons a acts ih =>
    intro s k elders hs ha
    exact ih (hs.act ha.1) ha.2

end Guarded

/-! ### Everybody -/

/-- Nobody takes the file of a listener away that is there. -/
def Respectful (s : Listeners) (a : Act) : Prop := ∀ n e, s.On n e → ¬s.Spoils a e

/-- What comes about on a host if nobody takes files away from under listeners. -/
inductive Reachable : Listeners → Prop
  | start (h : Host) : Reachable ⟨fun _ => none, h⟩
  | act {s : Listeners} (a : Act) (ha : s.Respectful a) : Reachable s → Reachable (s.act a)

/-- Every listener has its file, and nobody else is on it. -/
structure Sound (s : Listeners) : Prop where
  file : ∀ n e, s.On n e → s.host.isFile e = true
  unique : ∀ m n e, s.On m e → s.On n e → m = n

namespace Sound

/-- **Nobody loses its file, and nobody gets on the file of another**, if nobody takes files
away. -/
theorem act (hs : s.Sound) (ha : s.Respectful a) : (s.act a).Sound where
  file := by
    rintro k e ⟨t, hk, hp⟩
    obtain ⟨m, hm, -, hends⟩ | ⟨path, h, -, -, hb, hhost⟩ := origin hk hp
    · have hon : s.On m e := ⟨t, hm, hp⟩
      refine isFile_act (hs.file m e hon) (fun j hj => ?_) (ha m e hon)
      rw [hs.unique j m e hj hon]
      exact hends
    · rw [hhost]
      exact (Guarded.bind (s := s) (n := k) hb ((Listener.isFile_bindUnix hb).1 ▸ hp)).file
  unique := by
    rintro j k e ⟨t, hj, hp⟩ ⟨t', hk, hp'⟩
    -- whoever has just been bound is alone on its file
    have hfresh : ∀ {path h u m}, Listener.bindUnix path s.host = (.ok u, h) →
        Path.LeadsTo u.path e → ¬s.On m e := by
      intro path h u m hb hu hon
      rw [(Listener.isFile_bindUnix hb).1] at hu
      exact not_leadsTo_of_bindUnix hb (hs.file m e hon) hu
    obtain ⟨m, hm, rfl, -⟩ | ⟨path, h, hbind, -, hb, -⟩ := origin hj hp
    · obtain ⟨m', hm', rfl, -⟩ | ⟨path, h, -, -, hb, -⟩ := origin hk hp'
      · rw [hs.unique m m' e ⟨t, hm, hp⟩ ⟨t', hm', hp'⟩]
      · exact absurd ⟨t, hm, hp⟩ (hfresh hb hp')
    · obtain ⟨m', hm', -, -⟩ | ⟨path', h', hbind', -⟩ := origin hk hp'
      · exact absurd ⟨t', hm', hp'⟩ (hfresh hb hp)
      · cases hbind.symm.trans hbind'
        rfl

end Sound

theorem Reachable.sound (hs : Reachable s) : s.Sound := by
  induction hs with
  | start h => exact ⟨nofun, nofun⟩
  | act a ha _ ih => exact ih.act ha

/-- **The socket file of a listener is there** for as long as the listener is, nobody else takes it
away, and none of its elders ends: those are the listeners that were on the file when it was bound.
If nobody ever takes a file away from under a listener, then every listener has its file and is
alone on it.  A bind removes no file whatsoever, and if it fails there is no new one either. -/
theorem socket_file_spec :
    (∀ (s : Listeners) n path t, s.place n = none → (s.act (.bind n path)).place n = some t →
      Host.isDetached path = false → ∃ e, Path.LeadsTo path e ∧
        ∀ acts, (s.act (.bind n path)).Spared n e (s.On · e) acts →
          ((s.act (.bind n path)).run acts).place ((s.act (.bind n path)).carries acts n) = some t ∧
          t.path = path ∧ ((s.act (.bind n path)).run acts).host.hasFile t.path = true) ∧
    (∀ s, Reachable s → ∀ n t e, s.place n = some t → Path.LeadsTo t.path e →
      s.host.hasFile t.path = true ∧ ∀ m, s.On m e → m = n) ∧
    (∀ (s : Listeners) n path e,
      (s.host.isFile e = true → (s.act (.bind n path)).host.isFile e = true) ∧
      ∀ f h, Listener.bindUnix path s.host = (.error f, h) →
        (s.act (.bind n path)).host.isFile e = s.host.isFile e) := by
  refine ⟨fun s n path t hn hbound hd => ?_, fun s hs n t e hn hp => ?_, fun s n path e =>
    ⟨fun hf => ?_, fun f h hb => ?_⟩⟩
  · rcases hb : Listener.bindUnix path s.host with ⟨r, h⟩
    cases r with
    | error f => simp [act, hn, hb] at hbound
    | ok u =>
      have heq : s.act (.bind n path) = s.put n (some u) h := by simp only [act, hn, hb]
      rw [heq, place_put_self] at hbound
      cases hbound
      obtain ⟨hpath, ⟨hd', -⟩ | ⟨e, hp, -⟩⟩ := Listener.isFile_bindUnix hb
      · rw [hd] at hd'
        cases hd'
      · refine ⟨e, hp, fun acts hspared => ?_⟩
        rw [heq] at hspared ⊢
        obtain ⟨elders, hguarded⟩ := (Guarded.bind hb hp).run acts hspared
        exact ⟨hguarded.place, hpath, (Host.hasFile_iff hguarded.leads).mpr hguarded.file⟩
  -- soundness of reachable states says both
  · have hon : s.On n e := ⟨t, hn, hp⟩
    exact ⟨(Host.hasFile_iff hp).mpr (hs.sound.file n e hon), fun m hm =>
      hs.sound.unique m n e hm hon⟩
  · exact isFile_act hf (fun m _ hends => hends) (fun hspoils => hspoils)
  · cases hn : s.place n with
    | some t => simp only [act, hn]
    | none =>
      have heq : s.act (.bind n path) = { s with host := h } := by simp only [act, hn, hb]
      rw [heq]
      exact Listener.isFile_bindUnix_error hb e

/-! ### A run -/

/-- A host without listeners. -/
def bare : Listeners := ⟨fun _ => none, Host.initial .silent⟩

theorem leadsTo_name {name : String} (hr : Path.read name = .ok ⟨false, [name], false⟩)
    (hdot : name ≠ ".") (hup : name ≠ "..") (hshort : ¬Path.nameRoom < name.utf8ByteSize) :
    Path.LeadsTo name ⟨.working, name⟩ where
  walk := by
    refine ⟨_, hr, rfl, ?_⟩
    simp [Path.walk, Path.descend, hdot, hup, hshort]
  standing := by simp [Entry.standing?, Entry.device]

/-- The host of a listener, once no socket can listen any more. -/
def crowded : Host := { (bare.act (.bind 0 "s")).host with listenFault := some .addressInUse }

/-- A listener moves while others try in vain to be bound, to its path and elsewhere, and somebody
unlinks another path. -/
def bustle : List Act :=
  [.elsewhere crowded, .bind 1 "s", .bind 1 "u", .move 0 2, .unlink "t"]

/-- Through all that the file of the listener is there, and nobody else has left one. -/
theorem socket_file_spec_bustle :
    (bare.act (.bind 0 "s")).place 0 = some ⟨.unix, some 0, "s"⟩ ∧
    ((bare.act (.bind 0 "s")).run bustle).place 2 = some ⟨.unix, some 0, "s"⟩ ∧
    ((bare.act (.bind 0 "s")).run bustle).host.hasFile "s" = true ∧
    ((bare.act (.bind 0 "s")).run bustle).host.hasFile "u" = false := by
  have hbound : (bare.act (.bind 0 "s")).place 0 = some ⟨.unix, some 0, "s"⟩ := by decide +kernel
  obtain ⟨e, hp, hkept⟩ := socket_file_spec.1 bare 0 "s" _ rfl hbound (by decide +kernel)
  have hs : Path.LeadsTo "s" ⟨.working, "s"⟩ :=
    leadsTo_name rfl (by decide) (by decide) (by decide)
  have ht : Path.LeadsTo "t" ⟨.working, "t"⟩ :=
    leadsTo_name rfl (by decide) (by decide) (by decide)
  cases hp.unique hs
  -- no act of the list ends the listener, and the path unlinked leads elsewhere
  have hspared : (bare.act (.bind 0 "s")).Spared 0 ⟨.working, "s"⟩ (bare.On · ⟨.working, "s"⟩)
      bustle := by
    refine ⟨⟨(fun h => h), (fun m _ h => h), (fun h => nomatch h.1.symm.trans h.2)⟩,
      ⟨(fun h => h), (fun m _ h => h), (fun h => h)⟩,
      ⟨(fun h => h), (fun m _ h => h), (fun h => h)⟩,
      ⟨(fun h => h), (fun m _ h => h), (fun h => h)⟩,
      ⟨(fun h => h), (fun m _ h => h), (fun h => ?_)⟩, trivial⟩
    exact absurd (congrArg Entry.name (ht.unique h)) (by decide)
  obtain ⟨hplace, -, hfile⟩ := hkept bustle hspared
  have hcarries : (bare.act (.bind 0 "s")).carries bustle 0 = 2 := by decide +kernel
  rw [hcarries] at hplace
  exact ⟨hbound, hplace, hfile, by decide +kernel⟩

/-- A listener is bound, its file is unlinked, and another listener is bound to the same path. -/
def restarted : Listeners := bare.run [.bind 0 "s", .unlink "s", .bind 1 "s"]

/-- **The end of an elder takes the file of another listener along.**  The second listener is there
before and after, and nobody but the first one has touched its file. -/
theorem no_file_after_elder :
    restarted.place 1 = some ⟨.unix, some 1, "s"⟩ ∧ restarted.host.hasFile "s" = true ∧
    (∀ e, ¬restarted.Spoils (.drop 0) e) ∧
    (restarted.act (.drop 0)).place 1 = some ⟨.unix, some 1, "s"⟩ ∧
    (restarted.act (.drop 0)).host.hasFile "s" = false :=
  ⟨by decide +kernel, by decide +kernel, (fun _ h => h), by decide +kernel, by decide +kernel⟩

end Listeners

end EventLoop

import EventLoop.Proofs.Registration.Tenancy
import Mathlib.Logic.Function.Basic

/-!
# Resources that come, move and go

Any number of evented resources stand in places of their own and share one loop.
They are made, put to use, moved from place to place and dropped, in any order;
what else happens, on the host or to the loop, happens in between.  Beside each
place runs the story of what stands there, which goes where the resource goes.

## Main definitions

* `Deed` — what a story tells; `Deed.base` and `Deed.waits` read it.
* `Evented.Use` — what can be done with a resource in its place.
* `Rack` — the places, their stories and the loop; `Rack.Act` and `Rack.act`, what
  can happen and what is left then.
* `Rack.Reachable allow` — the states that come about through acts that are allowed.
* `Rack.holding` — the token held in each place.
* `Shift f l f' l'` — how all holdings and the loop change together.

## Main results

* `Evented.reregister_cases`, `Evented.afterWrite_cases`, `Evented.accept_cases` — how the
  operations on an interest end.
* `Evented.Use.transfer_run` — a use transfers at most the token of its resource.
* `Shift.tenancy`, `Shift.allHeld` — no token is handed out twice, and none is left without
  a holder.
* `Rack.shift_act` — **what an act does to all holdings.**
-/

namespace EventLoop

variable {ι κ : Type}

/-- Resources of two kinds. -/
instance [Pollable ι] [Pollable κ] : Pollable (ι ⊕ κ) where
  descriptor := Sum.elim Pollable.descriptor Pollable.descriptor
  hollow := Sum.map Pollable.hollow Pollable.hollow
  close := Sum.elim Pollable.close Pollable.close

/-! ### Stories -/

/-- What is worth telling of a resource. -/
inductive Deed
  /-- It was made with this interest. -/
  | made (i : Interest)
  /-- Its interest was replaced. -/
  | retuned (i : Interest)
  /-- A write to it had to wait while it was registered. -/
  | waited
  /-- It accepted an event of its own that reports room or closure. -/
  | woken
  /-- Its token was given back, or went elsewhere. -/
  | parted
  deriving DecidableEq, Repr

namespace Deed

/-- The interest that was asked for last; the latest deed comes first. -/
def base : List Deed → Interest
  | .made i :: _ | .retuned i :: _ => i
  | _ :: earlier => base earlier
  | [] => .readable

/-- Nothing has happened since a write had to wait. -/
def waits (story : List Deed) : Bool := story.head? == some .waited

end Deed

/-! ### Uses -/

namespace Evented

/-- The event is one of its own that reports room or closure. -/
def wakes (e : Evented ι) (event : Event) : Bool :=
  e.owns event && (event.ready.isWritable || event.ready.isClosed)

/-- What can be done with a resource in its place.  Reading and writing come with what the
resource then is and has answered; what the host did for it has happened before. -/
inductive Use (ι : Type)
  /-- Registers under the next token. -/
  | register
  /-- Registers under a token of the caller's choice. -/
  | registerAt (token : Token)
  /-- Replaces the interest. -/
  | reregister (i : Interest)
  /-- Gives the token back. -/
  | deregister
  /-- Takes note of an event. -/
  | accept (event : Event)
  /-- Receives bytes. -/
  | read (v : ι) (r : Except Failure (List UInt8))
  /-- Sends bytes. -/
  | write (v : ι) (r : Except Failure Nat)

namespace Use

variable [Pollable ι]

/-- What is left of the resource and of the loop. -/
def run (e : Evented ι) (l : Loop) : Use ι → Evented ι × Loop
  | .register => (e.register l).2
  | .registerAt token => (e.registerAt token l).2
  | .reregister i => (e.reregister i l).2
  | .deregister => (e.deregister l).2
  | .accept event => (e.accept event l).2
  | .read v r => (({ e with inner := v } : Evented ι).afterRead r, l)
  | .write v r => (({ e with inner := v } : Evented ι).afterWrite r l).2

/-- The answer only means "not now". -/
def mustWait : Except Failure Nat → Bool
  | .ok _ => false
  | .error f => f.isWouldBlock

/-- What it adds to the story. -/
def deeds (e : Evented ι) (l : Loop) : Use ι → List Deed
  | .reregister i => if (e.reregister i l).1.isOk then [.retuned i] else []
  | .deregister => [.parted]
  | .accept event => if e.wakes event then [.woken] else []
  | .write v r =>
    if e.token.isSome && mustWait (({ e with inner := v } : Evented ι).afterWrite r l).1
    then [.waited] else []
  | .register | .registerAt _ | .read _ _ => []

/-- A resource that is put to use keeps its descriptor. -/
def Keeps (e : Evented ι) : Use ι → Prop
  | .read v _ | .write v _ => Pollable.descriptor v = Pollable.descriptor e.inner
  | _ => True

end Use

end Evented

/-! ### Places -/

/-- Resources in their places with their stories, and the loop that they share. -/
structure Rack (ι : Type) where
  /-- What stands in each place. -/
  place : Nat → Option (Evented ι)
  /-- What it has been through, the latest first. -/
  story : Nat → List Deed
  /-- The loop. -/
  loop : Loop

namespace Rack

/-- What can happen. -/
inductive Act (ι : Type)
  /-- A resource is made in a place. -/
  | bring (n : Nat) (v : ι) (i : Interest)
  /-- A resource is put to use. -/
  | use (n : Nat) (u : Evented.Use ι)
  /-- A resource is made in a place from one that stands in another. -/
  | move (source target : Nat)
  /-- A resource takes the place of another. -/
  | assign (source target : Nat)
  /-- A resource goes. -/
  | dismiss (n : Nat)
  /-- Something else happens. -/
  | elsewhere (l : Loop)

/-- Something else stands in a place, with a story of its own, and the loop has changed. -/
def put (s : Rack ι) (n : Nat) (o : Option (Evented ι)) (story : List Deed) (l : Loop) : Rack ι where
  place := Function.update s.place n o
  story := Function.update s.story n story
  loop := l

variable [Pollable ι]

/-- A resource is put to use. -/
def use (s : Rack ι) (n : Nat) (u : Evented.Use ι) : Rack ι :=
  match s.place n with
  | none => s
  | some e => s.put n (some (u.run e s.loop).1) (u.deeds e s.loop ++ s.story n) (u.run e s.loop).2

/-- A resource goes. -/
def dismiss (s : Rack ι) (n : Nat) : Rack ι :=
  match s.place n with
  | none => s
  | some e => s.put n none [] (e.drop s.loop)

/-- What stands in one place goes to another that is empty. -/
def move (s : Rack ι) (source target : Nat) : Rack ι :=
  match s.place source with
  | none => s
  | some e =>
    (s.put source (some e.moveOut.2) (.parted :: s.story source) s.loop).put target
      (some e.moveOut.1) (s.story source) s.loop

/-- What stands in one place takes the place of what stands in another. -/
def assign (s : Rack ι) (source target : Nat) : Rack ι :=
  match s.place source, s.place target with
  | some e, some old =>
    if source = target then s
    else
      let (moved, rest, l) := old.assign e s.loop
      (s.put source (some rest) (.parted :: s.story source) l).put target (some moved)
        (s.story source) l
  | _, _ => s

/-- What is left after an act. -/
def act (s : Rack ι) : Act ι → Rack ι
  | .bring n v i => s.put n (some (.new v i)) [.made i] s.loop
  | .use n u => s.use n u
  | .move source target => s.move source target
  | .assign source target => s.assign source target
  | .dismiss n => s.dismiss n
  | .elsewhere l => { s with loop := l }

/-- An act is about places where something stands, and resources are made in places that are
empty. -/
def Fits (s : Rack ι) : Act ι → Prop
  | .bring n _ _ => s.place n = none
  | .use n u => ∃ e, s.place n = some e ∧ u.Keeps e
  | .move source target => (∃ e, s.place source = some e) ∧ s.place target = none
  | .assign source target => (∃ e, s.place source = some e) ∧ ∃ e, s.place target = some e
  | .dismiss n => ∃ e, s.place n = some e
  | .elsewhere _ => True

/-- The states that come about from a new loop through acts that are allowed. -/
inductive Reachable (allow : Rack ι → Act ι → Prop) : Rack ι → Prop
  | start {config : Config} {h h' : Host} {system : System}
      (hs : System.init config h = (.ok system, h')) :
      Reachable allow ⟨fun _ => none, fun _ => [], ⟨h', system⟩⟩
  | act {s : Rack ι} (a : Act ι) (ha : allow s a) : Reachable allow s → Reachable allow (s.act a)

/-- The token held in each place, and the descriptor it is held for. -/
def holding (s : Rack ι) (n : Nat) : Option Holding := (s.place n).bind Evented.holding

end Rack

/-! ### What an operation changes -/

namespace Evented

/-- Nothing but the latches differs. -/
structure SameSetting (e e' : Evented ι) : Prop where
  inner_eq : e'.inner = e.inner
  token_eq : e'.token = e.token
  interest_eq : e'.interest = e.interest
  armed_eq : e'.armed = e.armed

namespace SameSetting

variable {e e' : Evented ι}

theorem refl (e : Evented ι) : SameSetting e e := ⟨rfl, rfl, rfl, rfl⟩

theorem effective_eq (h : SameSetting e e') : e'.effective = e.effective := by
  unfold effective
  rw [h.armed_eq, h.interest_eq]

theorem holding_eq [Pollable ι] (h : SameSetting e e') : e'.holding = e.holding := by
  unfold holding
  rw [h.token_eq, h.inner_eq]

end SameSetting

theorem sameSetting_afterRead (e : Evented ι) (r : Except Failure (List UInt8)) :
    SameSetting e (e.afterRead r) := by
  unfold afterRead
  cases r with
  | error f => exact ⟨rfl, rfl, rfl, rfl⟩
  | ok bytes =>
    dsimp only
    split <;> exact ⟨rfl, rfl, rfl, rfl⟩

/-- How a change of interest ends: there is nothing to tell the loop; or it is told, and complies
or not. -/
theorem reregister_cases (e : Evented ι) (i : Interest) (l : Loop) :
    (e.token = none ∧ e.reregister i l = (.ok (), { e with interest := i, armed := false }, l)) ∨
      ∃ token, e.token = some token ∧
        ((∃ l', l.reregister token i = (.ok (), l') ∧
            e.reregister i l = (.ok (), { e with interest := i, armed := false }, l')) ∨
          ∃ f, l.reregister token i = (.error f, l) ∧ e.reregister i l = (.error f, e, l)) := by
  unfold reregister
  cases e.token with
  | none => exact Or.inl ⟨rfl, rfl⟩
  | some token =>
    refine Or.inr ⟨token, rfl, ?_⟩
    dsimp only
    rcases hr : l.reregister token i with ⟨r, l'⟩
    cases r with
    | ok u => exact Or.inl ⟨l', rfl, rfl⟩
    | error f =>
      rw [Loop.reregister_error hr]
      exact Or.inr ⟨f, rfl, rfl⟩

/-- How a write ends: nothing has to be asked for; or writable interest is asked for, and
granted or not. -/
theorem afterWrite_cases (e : Evented ι) (r : Except Failure Nat) (l : Loop) :
    ((e.afterWrite r l).2.2 = l ∧ SameSetting e (e.afterWrite r l).2.1 ∧
        (Use.mustWait (e.afterWrite r l).1 = true →
          e.token = none ∨ e.effective.isWritable = true)) ∨
      ∃ token, e.token = some token ∧ e.effective.isWritable = false ∧
        ((l.reregister token (e.interest.union .writable) = (.ok (), (e.afterWrite r l).2.2) ∧
            SameSetting { e with armed := true } (e.afterWrite r l).2.1 ∧
            Use.mustWait (e.afterWrite r l).1 = true) ∨
          ∃ g, l.reregister token (e.interest.union .writable) = (.error g, l) ∧
            (e.afterWrite r l).2.2 = l ∧ SameSetting e (e.afterWrite r l).2.1 ∧
            (e.afterWrite r l).1 = .error g) := by
  unfold afterWrite
  cases r with
  | ok n => exact Or.inl ⟨rfl, .refl e, fun h => nomatch h⟩
  | error f =>
    dsimp only
    -- only a write that would block asks the loop for anything
    cases hw : f.isWouldBlock with
    | false =>
      rw [if_neg Bool.false_ne_true]
      refine Or.inl ⟨rfl, .refl e, fun h => ?_⟩
      rw [Use.mustWait, hw] at h
      cases h
    | true =>
      rw [if_pos rfl]
      have hsame : SameSetting e e.clearWritable := ⟨rfl, rfl, rfl, rfl⟩
      rw [hsame.token_eq, hsame.effective_eq]
      cases ht : e.token with
      | none => exact Or.inl ⟨rfl, hsame, fun _ => Or.inl rfl⟩
      | some token =>
        cases he : e.effective.isWritable with
        | true => exact Or.inl ⟨rfl, hsame, fun _ => Or.inr rfl⟩
        | false =>
          refine Or.inr ⟨token, rfl, rfl, ?_⟩
          dsimp only
          rw [hsame.interest_eq]
          rcases hr : l.reregister token (e.interest.union .writable) with ⟨r, l'⟩
          cases r with
          | ok u => exact Or.inl ⟨rfl, ⟨rfl, rfl, rfl, rfl⟩, hw⟩
          | error g =>
            rw [Loop.reregister_error hr]
            exact Or.inr ⟨g, rfl, rfl, hsame, rfl⟩

/-- What an event leads to: it is noted at most; or a write has asked for writable interest,
and that is given back, with or without the multiplexer's help. -/
theorem accept_cases (e : Evented ι) (event : Event) (l : Loop) :
    ((e.accept event l).2.2 = l ∧ SameSetting e (e.accept event l).2.1 ∧
        (e.wakes event = true → e.armed = false)) ∨
      (e.wakes event = true ∧ e.token = some event.token ∧
        SameSetting { e with armed := false } (e.accept event l).2.1 ∧
        (l.reregister event.token e.interest = (.ok (), (e.accept event l).2.2) ∨
          ∃ f, l.reregister event.token e.interest = (.error f, l) ∧
            (e.accept event l).2.2 = l.note (.disarmFailed event.token f))) := by
  unfold accept wakes
  cases hown : e.owns event with
  | false =>
    rw [if_neg Bool.false_ne_true]
    exact Or.inl ⟨rfl, .refl e, fun h => nomatch h⟩
  | true =>
    rw [if_pos rfl]
    have htoken : e.token = some event.token := by
      unfold owns at hown
      exact beq_iff_eq.mp hown
    dsimp only
    cases hw : event.ready.isWritable || event.ready.isClosed with
    | false =>
      rw [Bool.and_false, if_neg Bool.false_ne_true]
      exact Or.inl ⟨rfl, ⟨rfl, rfl, rfl, rfl⟩, fun h => nomatch h⟩
    | true =>
      -- a wake-up takes the armed interest back, if it was armed at all
      cases ha : e.armed with
      | false =>
        rw [Bool.false_and, if_neg Bool.false_ne_true]
        exact Or.inl ⟨rfl, ⟨rfl, rfl, rfl, ha.symm⟩, fun _ => rfl⟩
      | true =>
        rw [Bool.true_and, if_pos rfl]
        refine Or.inr ⟨rfl, htoken, ?_⟩
        unfold disarm
        dsimp only
        rcases hr : l.reregister event.token e.interest with ⟨r, l'⟩
        cases r with
        | ok u => exact ⟨⟨rfl, rfl, rfl, rfl⟩, Or.inl rfl⟩
        | error f =>
          rw [Loop.reregister_error hr]
          exact ⟨⟨rfl, rfl, rfl, rfl⟩, Or.inr ⟨f, rfl, rfl⟩⟩

end Evented

/-! ### Tokens -/

namespace Evented

variable [Pollable ι] {e : Evented ι} {l : Loop}

/-- A write leaves token and descriptor alone. -/
theorem holding_afterWrite (e : Evented ι) (r : Except Failure Nat) (l : Loop) :
    (e.afterWrite r l).2.1.holding = e.holding := by
  rcases e.afterWrite_cases r l with ⟨-, hsame, -⟩ |
    ⟨token, -, -, ⟨-, hsame, -⟩ | ⟨g, -, -, hsame, -⟩⟩
  · exact hsame.holding_eq
  · exact hsame.holding_eq
  · exact hsame.holding_eq

omit [Pollable ι] in
theorem lodged_afterWrite (e : Evented ι) (r : Except Failure Nat) (l : Loop) (j : Token) :
    (e.afterWrite r l).2.2.lodged j = l.lodged j := by
  rcases e.afterWrite_cases r l with ⟨hl, -, -⟩ | ⟨token, -, -, h⟩
  · rw [hl]
  · rcases h with ⟨hr, -, -⟩ | ⟨g, -, hl, -⟩
    · have hkeep := Loop.lodged_reregister l token (e.interest.union .writable) j
      rw [hr] at hkeep
      exact hkeep
    · rw [hl]

/-- An event changes neither token nor descriptor. -/
theorem holding_accept (e : Evented ι) (event : Event) (l : Loop) :
    (e.accept event l).2.1.holding = e.holding := by
  rcases e.accept_cases event l with ⟨-, hsame, -⟩ | ⟨-, -, hsame, -⟩
  · exact hsame.holding_eq
  · exact hsame.holding_eq

omit [Pollable ι] in
theorem lodged_accept (e : Evented ι) (event : Event) (l : Loop) (j : Token) :
    (e.accept event l).2.2.lodged j = l.lodged j := by
  rcases e.accept_cases event l with ⟨hl, -, -⟩ | ⟨-, -, -, h⟩
  · rw [hl]
  · rcases h with hr | ⟨f, -, hl⟩
    · have hkeep := Loop.lodged_reregister l event.token e.interest j
      rw [hr] at hkeep
      exact hkeep
    · rw [hl]
      rfl

theorem holding_withInner {v : ι} (hv : Pollable.descriptor v = Pollable.descriptor e.inner) :
    ({ e with inner := v } : Evented ι).holding = e.holding := by
  show e.token.map (fun token => (token, Pollable.descriptor v)) = _
  rw [hv]
  rfl

namespace Use

/-- A use transfers at most the token of its resource. -/
theorem transfer_run {u : Use ι} (hu : u.Keeps e) (l : Loop) :
    Transfer l (u.run e l).2 e.holding (u.run e l).1.holding := by
  cases u with
  | register => exact transfer_register e l
  | registerAt token => exact transfer_registerAt e token l
  | reregister i =>
    show Transfer l (e.reregister i l).2.2 e.holding (e.reregister i l).2.1.holding
    rw [holding_reregister]
    exact .keep (lodged_reregister e i l)
  | deregister =>
    show Transfer l (e.deregister l).2.2 e.holding (e.deregister l).2.1.holding
    rw [holding_deregister]
    exact transfer_deregister e l
  | accept event =>
    show Transfer l (e.accept event l).2.2 e.holding (e.accept event l).2.1.holding
    rw [holding_accept]
    exact .keep (lodged_accept e event l)
  | read v r =>
    show Transfer l l e.holding (({ e with inner := v } : Evented ι).afterRead r).holding
    rw [(sameSetting_afterRead _ r).holding_eq, holding_withInner hu]
    exact .keep fun _ => rfl
  | write v r =>
    show Transfer l (({ e with inner := v } : Evented ι).afterWrite r l).2.2 e.holding
      (({ e with inner := v } : Evented ι).afterWrite r l).2.1.holding
    rw [holding_afterWrite, holding_withInner hu]
    exact .keep (lodged_afterWrite _ r l)

end Use

end Evented

/-! ### Holdings -/

/-- Every token in the table is held. -/
def AllHeld (f : Nat → Option Holding) (l : Loop) : Prop :=
  ∀ token d, l.lodged token = some d → ∃ n, f n = some (token, d)

section Changes

variable {f f' : Nat → Option Holding} {l l' : Loop} {m n : Nat}

/-- The holding of one place goes to another that has none. -/
theorem Tenancy.relocate (ht : Tenancy f l) (hm : f' m = none) (hn : f' n = f m)
    (hother : ∀ k, k ≠ m → k ≠ n → f' k = f k) : Tenancy f' l := by
  -- whatever a place holds now was held where it came from
  have hfrom : ∀ k token d, f' k = some (token, d) →
      f (if k = n then m else k) = some (token, d) := by
    intro k token d hk
    by_cases hkn : k = n
    · rw [if_pos hkn, ← hn, ← hkn]
      exact hk
    · have hkm : k ≠ m := by
        rintro rfl
        rw [hm] at hk
        cases hk
      rw [if_neg hkn, ← hother k hkm hkn]
      exact hk
  constructor
  · intro k token d hk
    exact ht.held _ token d (hfrom k token d hk)
  · intro j k token d d' hj hk
    have heq := ht.unique _ _ token d d' (hfrom j token d hj) (hfrom k token d' hk)
    by_cases hjn : j = n
    · by_cases hkn : k = n
      · rw [hjn, hkn]
      · rw [if_pos hjn, if_neg hkn] at heq
        rw [← heq, hm] at hk
        cases hk
    · by_cases hkn : k = n
      · rw [if_neg hjn, if_pos hkn] at heq
        rw [heq, hm] at hj
        cases hj
      · rw [if_neg hjn, if_neg hkn] at heq
        exact heq

namespace AllHeld

/-- A transfer of one holding leaves no token without a holder. -/
theorem transfer (ht : AllHeld f l) (htr : Transfer l l' (f n) (f' n))
    (hother : ∀ m, m ≠ n → f' m = f m) : AllHeld f' l' := by
  -- a token that is not held at the place is held where it was
  have helse : ∀ token d, l.lodged token = some d → f n ≠ some (token, d) →
      ∃ m, f' m = some (token, d) := by
    intro token d hd hne
    obtain ⟨m, hm⟩ := ht token d hd
    have hmn : m ≠ n := by
      rintro rfl
      exact hne hm
    exact ⟨m, (hother m hmn).trans hm⟩
  intro token d hd
  generalize hfn : f n = a at htr helse
  generalize hfn' : f' n = b at htr
  cases htr with
  | keep hk =>
    rw [hk] at hd
    by_cases hheld : a = some (token, d)
    · exact ⟨n, hfn'.trans hheld⟩
    · exact helse token d hd hheld
  | @take t d' hfree hk =>
    rw [hk] at hd
    by_cases htok : token = t
    · rw [if_pos htok] at hd
      cases hd
      exact ⟨n, by rw [hfn', htok]⟩
    · rw [if_neg htok] at hd
      exact helse token d hd (Option.some_ne_none _).symm
  | @give t d' hk =>
    rw [hk] at hd
    by_cases htok : token = t
    · rw [if_pos htok] at hd
      cases hd
    · rw [if_neg htok] at hd
      refine helse token d hd ?_
      rintro ⟨⟩
      exact htok rfl

theorem relocate (ht : AllHeld f l) (hfree : f n = none) (hn : f' n = f m)
    (hother : ∀ k, k ≠ m → k ≠ n → f' k = f k) : AllHeld f' l := by
  intro token d hd
  obtain ⟨k, hk⟩ := ht token d hd
  by_cases hkm : k = m
  · exact ⟨n, by rw [hn, ← hkm, hk]⟩
  · have hkn : k ≠ n := by
      rintro rfl
      rw [hfree] at hk
      cases hk
    exact ⟨k, (hother k hkm hkn).trans hk⟩

end AllHeld

end Changes

/-- How the holdings of all places and the loop change together. -/
inductive Shift : (Nat → Option Holding) → Loop → (Nat → Option Holding) → Loop → Prop
  /-- The holding of one place changes, and the table with it. -/
  | transfer {f f' : Nat → Option Holding} {l l' : Loop} (n : Nat)
      (htr : Transfer l l' (f n) (f' n)) (hother : ∀ m, m ≠ n → f' m = f m) : Shift f l f' l'
  /-- The holding of one place goes to another that has none. -/
  | relocate {f f' : Nat → Option Holding} {l : Loop} (m n : Nat) (hfree : f n = none)
      (hm : f' m = none) (hn : f' n = f m) (hother : ∀ k, k ≠ m → k ≠ n → f' k = f k) :
      Shift f l f' l
  /-- One after the other. -/
  | trans {f f' f'' : Nat → Option Holding} {l l' l'' : Loop} (h : Shift f l f' l')
      (h' : Shift f' l' f'' l'') : Shift f l f'' l''

namespace Shift

variable {f f' : Nat → Option Holding} {l l' : Loop}

/-- **No token is handed out twice**, and none is lost track of. -/
theorem tenancy (h : Shift f l f' l') (ht : Tenancy f l) : Tenancy f' l' := by
  induction h with
  | transfer n htr hother => exact ht.transfer rfl htr rfl hother
  | relocate m n _ hm hn hother => exact ht.relocate hm hn hother
  | trans _ _ ih ih' => exact ih' (ih ht)

/-- **No token is left without a holder.** -/
theorem allHeld (h : Shift f l f' l') (ht : AllHeld f l) : AllHeld f' l' := by
  induction h with
  | transfer n htr hother => exact ht.transfer htr hother
  | relocate m n hfree _ hn hother => exact ht.relocate hfree hn hother
  | trans _ _ ih ih' => exact ih' (ih ht)

end Shift

namespace Rack

variable [Pollable ι] {s : Rack ι} {m n : Nat} {e old : Evented ι}

/-! ### Acts on what is there -/

section Put

omit [Pollable ι]

variable {o : Option (Evented ι)} {story : List Deed} {l : Loop}

@[simp] theorem place_put_self : (s.put n o story l).place n = o := Function.update_self _ _ _

theorem place_put_of_ne (hm : m ≠ n) : (s.put n o story l).place m = s.place m :=
  Function.update_of_ne hm _ _

@[simp] theorem story_put_self : (s.put n o story l).story n = story := Function.update_self _ _ _

theorem story_put_of_ne (hm : m ≠ n) : (s.put n o story l).story m = s.story m :=
  Function.update_of_ne hm _ _

/-- Only what is put last counts. -/
theorem put_comm_put {o' o'' : Option (Evented ι)} {story' story'' : List Deed} {l' l'' : Loop}
    (hmn : m ≠ n) : ((s.put n o story l).put m o' story' l').put n o'' story'' l''
      = (s.put m o' story' l').put n o'' story'' l'' := by
  unfold put
  dsimp only
  rw [Function.update_comm hmn.symm, Function.update_idem, Function.update_comm hmn.symm,
    Function.update_idem]

end Put

@[simp] theorem act_use (s : Rack ι) (n : Nat) (u : Evented.Use ι) :
    s.act (.use n u) = s.use n u := rfl

@[simp] theorem act_move (s : Rack ι) (m n : Nat) : s.act (.move m n) = s.move m n := rfl

@[simp] theorem act_assign (s : Rack ι) (m n : Nat) : s.act (.assign m n) = s.assign m n := rfl

@[simp] theorem act_dismiss (s : Rack ι) (n : Nat) : s.act (.dismiss n) = s.dismiss n := rfl

theorem use_eq (he : s.place n = some e) (u : Evented.Use ι) : s.use n u
    = s.put n (some (u.run e s.loop).1) (u.deeds e s.loop ++ s.story n) (u.run e s.loop).2 := by
  unfold use
  rw [he]

theorem move_eq (he : s.place m = some e) (n : Nat) : s.move m n
    = (s.put m (some e.moveOut.2) (.parted :: s.story m) s.loop).put n (some e) (s.story m)
      s.loop := by
  unfold move
  rw [he]
  rfl

theorem assign_self (s : Rack ι) (n : Nat) : s.assign n n = s := by
  unfold assign
  cases s.place n with
  | none => rfl
  | some e => exact if_pos rfl

theorem assign_eq (he : s.place m = some e) (hold : s.place n = some old) (hne : m ≠ n) :
    s.assign m n = (s.put m (some e.moveOut.2) (.parted :: s.story m) (old.drop s.loop)).put n
      (some e) (s.story m) (old.drop s.loop) := by
  unfold assign
  rw [he, hold]
  dsimp only
  rw [if_neg hne]
  rfl

theorem dismiss_eq (he : s.place n = some e) :
    s.dismiss n = s.put n none [] (e.drop s.loop) := by
  unfold dismiss
  rw [he]

/-- To take the place of another is to move there once the other is gone. -/
theorem assign_of_ne (he : s.place m = some e) (hold : s.place n = some old) (hne : m ≠ n) :
    s.assign m n = (s.dismiss n).move m n := by
  have he' : (s.dismiss n).place m = some e := by
    rw [dismiss_eq hold, place_put_of_ne hne]
    exact he
  rw [move_eq he', dismiss_eq hold, assign_eq he hold hne, story_put_of_ne hne]
  exact (put_comm_put hne).symm

theorem place_dismiss (s : Rack ι) (n : Nat) : (s.dismiss n).place n = none := by
  cases hn : s.place n with
  | none =>
    unfold dismiss
    rw [hn]
    exact hn
  | some e => rw [dismiss_eq hn, place_put_self]

/-! ### Acts and holdings -/

theorem holding_of_place {n : Nat} {o : Option (Evented ι)} (h : s.place n = o) :
    s.holding n = o.bind Evented.holding := by rw [holding, h]

/-- What stands in one place changes, and the loop with it. -/
theorem shift_put {n : Nat} {o : Option (Evented ι)} {story : List Deed} {l' : Loop}
    (htr : Transfer s.loop l' (s.holding n) (o.bind Evented.holding)) :
    Shift s.holding s.loop (s.put n o story l').holding l' := by
  refine .transfer n ?_ fun m hm => ?_
  · rw [holding_of_place place_put_self]
    exact htr
  · rw [holding_of_place (place_put_of_ne hm)]
    rfl

/-- What stands in one place goes to another that is empty. -/
theorem shift_move (hm : s.place m = some e) (hn : s.place n = none) :
    Shift s.holding s.loop (s.move m n).holding (s.move m n).loop := by
  have hne : m ≠ n := by
    rintro rfl
    cases hm.symm.trans hn
  rw [move_eq hm]
  refine .relocate m n (holding_of_place hn) ?_ ?_ fun k hkm hkn => ?_
  · rw [holding_of_place ((place_put_of_ne hne).trans place_put_self)]
    rfl
  · rw [holding_of_place place_put_self, holding_of_place hm]
  · rw [holding_of_place ((place_put_of_ne hkn).trans (place_put_of_ne hkm))]
    rfl

theorem shift_dismiss (he : s.place n = some e) :
    Shift s.holding s.loop (s.dismiss n).holding (s.dismiss n).loop := by
  rw [dismiss_eq he]
  refine shift_put ?_
  rw [holding_of_place he]
  exact e.transfer_drop s.loop

/-- **What an act does to the holdings**, unless it comes from elsewhere. -/
theorem shift_act {a : Act ι} (ha : s.Fits a) (helse : ∀ l, a ≠ .elsewhere l) :
    Shift s.holding s.loop (s.act a).holding (s.act a).loop := by
  cases a with
  | bring n v i =>
    refine shift_put ?_
    rw [holding_of_place ha]
    exact .keep fun _ => rfl
  | use n u =>
    obtain ⟨e, he, hkeeps⟩ := ha
    rw [act_use, use_eq he]
    refine shift_put ?_
    rw [holding_of_place he]
    exact Evented.Use.transfer_run hkeeps s.loop
  | move m n =>
    obtain ⟨e, he⟩ := ha.1
    exact shift_move he ha.2
  | assign m n =>
    obtain ⟨e, he⟩ := ha.1
    obtain ⟨old, hold⟩ := ha.2
    rw [act_assign]
    by_cases hmn : m = n
    · rw [hmn, assign_self]
      exact .transfer n (.keep fun _ => rfl) fun _ _ => rfl
    · rw [assign_of_ne he hold hmn]
      have he' : (s.dismiss n).place m = some e := by
        rw [dismiss_eq hold]
        exact (place_put_of_ne hmn).trans he
      exact (shift_dismiss hold).trans (shift_move he' (place_dismiss s n))
  | dismiss n =>
    obtain ⟨e, he⟩ := ha
    exact shift_dismiss he
  | elsewhere l => exact absurd rfl (helse l)

end Rack
end EventLoop

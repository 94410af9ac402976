import EventLoop.Proofs.Registration.Rollback
import EventLoop.Proofs.Sessions.Trying

/-!
# Sessions that are refused

A session that cannot be registered is not stored.  The keys that were tried
before, because the loop held them, are withdrawn all the same and never issued
again.  As long as the loop goes on holding them this makes no difference, since
they would be passed over each time.

## Main definitions

* `Sessions.Reachable offset policy s` — `s` comes about from a table without sessions.
* `Sessions.Skips s l key` — the table comes to the key before any that the loop does not hold.
* `Sessions.Request`, `Sessions.serveAll` — what is asked of a table, one after the other.
* `Sessions.Step` — a request to two tables, with the loop as either finds it.
* `Sessions.Spares K s t` — the table `t` is the table `s` but for keys of `K` it issues no more.

## Main results

* `Spares.serve` — such tables answer every request alike where the loop holds the keys of `K`.
* `Reachable.refused_add_spec` — **what an add that fails leaves behind.**
-/

namespace EventLoop
namespace Sessions

variable {ι : Type} [Pollable ι]

/-! ### Requests -/

/-- What is asked of a table. -/
inductive Request (ι : Type)
  /-- A session is added. -/
  | add (v : Evented ι)
  /-- A session is removed. -/
  | remove (key : Token)
  /-- A session is looked up. -/
  | find (key : Token)
  /-- A session is put to use and looks different afterwards. -/
  | tend (key : Token) (v : Evented ι)

/-- What the table says. -/
inductive Answer (ι : Type)
  /-- The key of the new session, or why there is none. -/
  | added (r : Except Failure Token)
  /-- The session that went, if there was one. -/
  | removed (o : Option (Evented ι))
  /-- The session, if there is one. -/
  | found (o : Option (Evented ι))
  /-- Nothing. -/
  | tended

namespace Request

/-- The answer to a request, and the table afterwards. -/
def serve (s : Sessions (Evented ι)) (l : Loop) : Request ι → Answer ι × Sessions (Evented ι)
  | .add v => (.added (s.add v l).1, (s.add v l).2.1)
  | .remove key => (.removed (s.slab.get? key), (s.remove key l).1)
  | .find key => (.found (s.slab.get? key), s)
  | .tend key v => (.tended, ⟨s.slab.set key v⟩)

end Request

/-- The answers to requests, each with the loop as the table finds it then, and the table at
the end. -/
def serveAll (s : Sessions (Evented ι)) :
    List (Request ι × Loop) → List (Answer ι) × Sessions (Evented ι)
  | [] => ([], s)
  | (q, l) :: rest =>
    let (a, s) := q.serve s l
    let (answers, s) := s.serveAll rest
    (a :: answers, s)

/-- The states a table of sessions reaches. -/
inductive Reachable (offset : Token) (policy : Capacity) : Sessions (Evented ι) → Prop
  | empty : Reachable offset policy (.empty offset policy)
  | serve {s : Sessions (Evented ι)} {l : Loop} (hl : l.Reachable) (q : Request ι) :
      Reachable offset policy s → Reachable offset policy (q.serve s l).2

/-- The table comes to the key before any that the loop does not hold, so that an add skips
it. -/
def Skips (s : Sessions (Evented ι)) (l : Loop) (key : Token) : Prop :=
  s.slab.policy.admits s.slab.live = true ∧
    ∃ n, s.slab.issue n = key ∧ ∀ i ≤ n, l.system.isRegistered (s.slab.issue i) = true

/-! ### One add -/

/-- An add that is not refused for want of room comes to a key that the loop does not hold. -/
theorem exists_add_reaches {s : Sessions (Evented ι)} (v : Evented ι) {l : Loop}
    (hs : s.slab.WellFormed) (hl : l.Reachable)
    (hadm : s.slab.policy.admits s.slab.live = true) :
    ∃ n, Slab.Reaches l.system.isRegistered s.slab.issue n ∧
      (s.add v l).1 = (v.registerAt (s.slab.issue n) l).1.map (fun _ => s.slab.issue n) ∧
      Slab.Taken n (entry v (s.slab.issue n) (v.registerAt (s.slab.issue n) l).1) s.slab
        (s.add v l).2.1.slab := by
  obtain ⟨n, -, hn⟩ := hs.exists_reaches hl.wellFormed
  exact ⟨n, hn, add_reaches hs hl.wellFormed hadm hn⟩

theorem wellFormed_serve {s : Sessions (Evented ι)} {l : Loop} (hs : s.slab.WellFormed)
    (hl : l.Reachable) (q : Request ι) : (q.serve s l).2.slab.WellFormed := by
  cases q with
  | add v =>
    cases hadm : s.slab.policy.admits s.slab.live with
    | false =>
      show (s.add v l).2.1.slab.WellFormed
      rw [(add_full v l hadm).2]
      exact hs
    | true =>
      obtain ⟨n, -, -, htaken⟩ := exists_add_reaches v hs hl hadm
      exact htaken.wellFormed
  | remove key =>
    show (s.remove key l).1.slab.WellFormed
    have hslab : (s.remove key l).1.slab = (s.slab.remove key).2 := slab_remove s key l
    rw [hslab]
    exact hs.remove key
  | find key => exact hs
  | tend key v => exact hs.set key v

theorem Reachable.wellFormed {offset : Token} {policy : Capacity} {s : Sessions (Evented ι)}
    (hs : Reachable offset policy s) : s.slab.WellFormed := by
  induction hs with
  | empty => exact .of_empty offset policy
  | serve hl q _ ih => exact wellFormed_serve ih hl q

/-! ### Two tables -/

/-- The table `t` is the table `s`, but some keys of `K` are not in its order. -/
structure Spares (K : Token → Prop) (s t : Sessions (Evented ι)) : Prop where
  wellFormed_left : s.slab.WellFormed
  wellFormed_right : t.slab.WellFormed
  get?_eq : ∀ j, t.slab.get? j = s.slab.get? j
  live_eq : t.slab.live = s.slab.live
  offset_eq : t.slab.offset = s.slab.offset
  policy_eq : t.slab.policy = s.slab.policy
  thins : Slab.Thins K s.slab.issue t.slab.issue

/-- A request to two tables, with the loop as either finds it. -/
structure Step (ι : Type) where
  /-- What is asked. -/
  request : Request ι
  /-- The loop as the one finds it. -/
  here : Loop
  /-- The loop as the other finds it. -/
  there : Loop

/-- The loop behaves the same towards both. -/
structure Step.Alike (p : Step ι) : Prop where
  here_reachable : p.here.Reachable
  there_reachable : p.there.Reachable
  isRegistered_eq : ∀ key, p.here.system.isRegistered key = p.there.system.isRegistered key
  registerAt_eq : ∀ v, p.request = .add v →
    ∀ key, (v.registerAt key p.here).1 = (v.registerAt key p.there).1

namespace Spares

variable {K : Token → Prop} {s t : Sessions (Evented ι)}

theorem add (h : Spares K s t) {v : Evented ι} {here there : Loop} (hh : here.Reachable)
    (ht : there.Reachable)
    (hreg : ∀ key, here.system.isRegistered key = there.system.isRegistered key)
    (hans : ∀ key, (v.registerAt key here).1 = (v.registerAt key there).1)
    (hK : ∀ key, K key → here.system.isRegistered key = true) :
    (t.add v here).1 = (s.add v there).1 ∧ Spares K (s.add v there).2.1 (t.add v here).2.1 := by
  have hadm : t.slab.policy.admits t.slab.live = s.slab.policy.admits s.slab.live := by
    rw [h.policy_eq, h.live_eq]
  cases hs : s.slab.policy.admits s.slab.live with
  | false =>
    rw [hs] at hadm
    obtain ⟨hrt, hkt⟩ := add_full (s := t) v here hadm
    obtain ⟨hrs, hks⟩ := add_full (s := s) v there hs
    rw [hrt, hkt, hrs, hks]
    exact ⟨rfl, h⟩
  | true =>
    obtain ⟨m, hm, hrt, htt⟩ := exists_add_reaches v h.wellFormed_right hh (hadm.trans hs)
    -- what `t` comes to is what `s` comes to, since all that `s` has besides is held
    obtain ⟨a, ha, hkey, hsame, hnext⟩ := h.thins.reaches hK hm
    have hheld : here.system.isRegistered = there.system.isRegistered := funext hreg
    rw [hheld] at ha
    obtain ⟨hrs, hts⟩ := add_reaches (v := v) h.wellFormed_left ht.wellFormed hs ha
    rw [hkey, hans] at hrt htt
    refine ⟨hrt.trans hrs.symm, hts.wellFormed, htt.wellFormed, fun j => ?_, ?_, ?_, ?_, ?_⟩
    · rw [htt.get?_eq, hts.get?_eq, hkey, h.get?_eq]
    · rw [htt.live_eq, hts.live_eq, h.live_eq]
    · rw [htt.offset_eq, hts.offset_eq, h.offset_eq]
    · rw [htt.policy_eq, hts.policy_eq, h.policy_eq]
    · rw [funext htt.issue_eq, funext hts.issue_eq]
      cases entry v (s.slab.issue a) (v.registerAt (s.slab.issue a) there).1 with
      | none => exact hsame
      | some w => exact hnext

theorem remove (h : Spares K s t) (key : Token) (here there : Loop) :
    Spares K (s.remove key there).1 (t.remove key here).1 := by
  have hs := slab_remove s key there
  have ht := slab_remove t key here
  refine ⟨?_, ?_, fun j => ?_, ?_, ?_, ?_, ?_⟩
  · rw [hs]
    exact h.wellFormed_left.remove key
  · rw [ht]
    exact h.wellFormed_right.remove key
  · rw [hs, ht, Slab.get?_remove, Slab.get?_remove, h.get?_eq]
  · rw [hs, ht]
    cases hv : s.slab.get? key with
    | none =>
      rw [Slab.remove_none hv, Slab.remove_none ((h.get?_eq key).trans hv)]
      exact h.live_eq
    | some v =>
      rw [Slab.live_remove hv, Slab.live_remove ((h.get?_eq key).trans hv), h.live_eq]
  · rw [hs, ht, Slab.offset_remove, Slab.offset_remove, h.offset_eq]
  · rw [hs, ht, Slab.policy_remove, Slab.policy_remove, h.policy_eq]
  · rw [hs, ht]
    cases hv : s.slab.get? key with
    | none =>
      rw [Slab.remove_none hv, Slab.remove_none ((h.get?_eq key).trans hv)]
      exact h.thins
    | some v =>
      have hv' := (h.get?_eq key).trans hv
      by_cases hoff : s.slab.offset ≤ key
      · -- the key comes first in both orders
        have hoff' : t.slab.offset ≤ key := h.offset_eq.symm ▸ hoff
        refine h.thins.cons ?_ (Slab.issue_remove hv hoff) (Slab.issue_remove hv' hoff')
        rw [Slab.issue_zero, Slab.issue_zero, Slab.vacantKey_remove hv hoff,
          Slab.vacantKey_remove hv' hoff']
      · have hoff' : ¬t.slab.offset ≤ key := h.offset_eq.symm ▸ hoff
        rw [Slab.remove_some hv, Slab.remove_some hv', if_neg hoff, if_neg hoff']
        exact h.thins

/-- **Tables that differ in keys the loop holds answer alike.** -/
theorem serve (h : Spares K s t) {p : Step ι} (hp : p.Alike)
    (hK : ∀ key, K key → p.here.system.isRegistered key = true) :
    (p.request.serve t p.here).1 = (p.request.serve s p.there).1 ∧
      Spares K (p.request.serve s p.there).2 (p.request.serve t p.here).2 := by
  obtain ⟨hh, ht, hreg, hans⟩ := hp
  cases hq : p.request with
  | add v =>
    obtain ⟨hr, hsp⟩ := h.add hh ht hreg (hans v hq) hK
    exact ⟨congrArg Answer.added hr, hsp⟩
  | remove key => exact ⟨congrArg Answer.removed (h.get?_eq key), h.remove key p.here p.there⟩
  | find key => exact ⟨congrArg Answer.found (h.get?_eq key), h⟩
  | tend key v =>
    refine ⟨rfl, h.wellFormed_left.set key v, h.wellFormed_right.set key v, fun j => ?_, ?_, ?_,
      ?_, ?_⟩
    · show (t.slab.set key v).get? j = (s.slab.set key v).get? j
      rw [Slab.get?_set, Slab.get?_set, Slab.contains, Slab.contains, h.get?_eq, h.get?_eq]
    · show (t.slab.set key v).live = (s.slab.set key v).live
      rw [Slab.live_set, Slab.live_set, h.live_eq]
    · show (t.slab.set key v).offset = (s.slab.set key v).offset
      rw [Slab.offset_set, Slab.offset_set, h.offset_eq]
    · show (t.slab.set key v).policy = (s.slab.set key v).policy
      rw [Slab.policy_set, Slab.policy_set, h.policy_eq]
    · show Slab.Thins K (s.slab.set key v).issue (t.slab.set key v).issue
      rw [funext (Slab.issue_set s.slab key v), funext (Slab.issue_set t.slab key v)]
      exact h.thins

theorem serveAll {later : List (Step ι)}
    (hlater : ∀ p ∈ later, p.Alike ∧ ∀ key, K key → p.here.system.isRegistered key = true)
    (h : Spares K s t) :
    (t.serveAll (later.map fun p => (p.request, p.here))).1
      = (s.serveAll (later.map fun p => (p.request, p.there))).1 := by
  induction later generalizing s t with
  | nil => rfl
  | cons p rest ih =>
    obtain ⟨hp, hK⟩ := hlater p List.mem_cons_self
    obtain ⟨ha, hsp⟩ := h.serve hp hK
    exact congrArg₂ List.cons ha (ih (fun r hr => hlater r (List.mem_cons_of_mem p hr)) hsp)

end Spares

/-! ### Withdrawn keys -/

/-- The key holds no session and is not in the order of the table. -/
def Withdrawn (s : Sessions (Evented ι)) (key : Token) : Prop :=
  s.slab.WellFormed ∧ s.slab.get? key = none ∧ ∀ n, s.slab.issue n ≠ key

namespace Withdrawn

variable {s : Sessions (Evented ι)} {key : Token} {l : Loop}

theorem add (h : s.Withdrawn key) (v : Evented ι) (hl : l.Reachable) :
    (s.add v l).1 ≠ .ok key ∧ (s.add v l).2.1.Withdrawn key := by
  obtain ⟨hwf, hnone, hne⟩ := h
  cases hadm : s.slab.policy.admits s.slab.live with
  | false =>
    obtain ⟨hr, hkept⟩ := add_full v l hadm
    rw [hr, hkept]
    exact ⟨(fun h => nomatch h), hwf, hnone, hne⟩
  | true =>
    obtain ⟨n, -, hr, htaken⟩ := exists_add_reaches v hwf hl hadm
    refine ⟨?_, htaken.wellFormed, ?_, fun j => ?_⟩
    · rw [hr]
      cases (v.registerAt (s.slab.issue n) l).1 with
      | error f => exact fun h => nomatch h
      | ok u => exact fun h => hne n (Except.ok.inj h)
    · rw [htaken.get?_eq, if_neg (hne n).symm]
      exact hnone
    · rw [htaken.issue_eq]
      exact hne _

theorem serve (h : s.Withdrawn key) (hl : l.Reachable) (q : Request ι) :
    (q.serve s l).1 ≠ .added (.ok key) ∧ (q.serve s l).2.Withdrawn key := by
  obtain ⟨hwf, hnone, hne⟩ := h
  cases q with
  | add v =>
    obtain ⟨hr, hw⟩ := Withdrawn.add ⟨hwf, hnone, hne⟩ v hl
    exact ⟨fun h => hr (Answer.added.inj h), hw⟩
  | remove k =>
    refine ⟨(fun h => nomatch h), wellFormed_serve hwf hl (.remove k), ?_, fun n => ?_⟩
    · show (s.remove k l).1.slab.get? key = none
      rw [slab_remove, Slab.get?_remove, hnone, ite_self]
    · show (s.remove k l).1.slab.issue n ≠ key
      rw [slab_remove]
      cases hk : s.slab.get? k with
      | none =>
        rw [Slab.remove_none hk]
        exact hne n
      | some v =>
        have hkey : k ≠ key := by
          rintro rfl
          rw [hnone] at hk
          cases hk
        by_cases hoff : s.slab.offset ≤ k
        · cases n with
          | zero => rw [Slab.issue_zero, Slab.vacantKey_remove hk hoff]; exact hkey
          | succ n => rw [Slab.issue_remove hk hoff]; exact hne n
        · rw [Slab.remove_some hk, if_neg hoff]
          exact hne n
  | find k => exact ⟨(fun h => nomatch h), hwf, hnone, hne⟩
  | tend k v =>
    refine ⟨(fun h => nomatch h), hwf.set k v, Slab.get?_set_of_vacant k v hnone, fun n => ?_⟩
    show (s.slab.set k v).issue n ≠ key
    rw [Slab.issue_set]
    exact hne n

/-- **A withdrawn key is never issued again.** -/
theorem serveAll (h : s.Withdrawn key) {later : List (Request ι × Loop)}
    (hlater : ∀ p ∈ later, p.2.Reachable) : .added (.ok key) ∉ (s.serveAll later).1 := by
  induction later generalizing s with
  | nil => exact List.not_mem_nil
  | cons p rest ih =>
    obtain ⟨q, l⟩ := p
    obtain ⟨ha, hw⟩ := h.serve (hlater _ List.mem_cons_self) q
    show _ ∉ (q.serve s l).1 :: ((q.serve s l).2.serveAll rest).1
    intro hmem
    rcases List.mem_cons.mp hmem with heq | hmem
    · exact ha heq.symm
    · exact ih hw (fun r hr => hlater r (List.mem_cons_of_mem _ hr)) hmem

end Withdrawn

/-! ### An add that fails -/

/-- What an add that fails leaves of the table: all but the keys it skipped. -/
theorem taken_of_add_error {s : Sessions (Evented ι)} {v : Evented ι} {l : Loop} {f : Failure}
    (hs : s.slab.WellFormed) (hl : l.Reachable) (h : (s.add v l).1 = .error f) :
    ∃ n, Slab.Taken n none s.slab (s.add v l).2.1.slab ∧
      ∀ key, s.Skips l key ↔ ∃ i < n, s.slab.issue i = key := by
  cases hadm : s.slab.policy.admits s.slab.live with
  | false =>
    rw [(add_full v l hadm).2]
    refine ⟨0, ⟨hs, fun j => ?_, rfl, fun j => ?_, rfl, rfl⟩, fun key => ⟨?_, ?_⟩⟩
    · split
      · next hj => rw [hj, (hs.issue_spec 0).1]
      · rfl
    · congr 1
      simp
    · rintro ⟨hyes, -⟩
      rw [hadm] at hyes
      cases hyes
    · rintro ⟨i, hi, -⟩
      exact absurd hi (Nat.not_lt_zero i)
  | true =>
    obtain ⟨n, hn, hr, htaken⟩ := exists_add_reaches v hs hl hadm
    rw [h] at hr
    refine ⟨n, ?_, fun key => ⟨?_, ?_⟩⟩
    · -- nothing is stored, since the registration has failed
      cases hreg : (v.registerAt (s.slab.issue n) l).1 with
      | error e => rw [hreg] at htaken; exact htaken
      | ok u => rw [hreg] at hr; cases hr
    · rintro ⟨-, i, hi, hall⟩
      refine ⟨i, Nat.lt_of_not_le fun hle => ?_, hi⟩
      have hheld := hall n hle
      rw [hn.stop] at hheld
      cases hheld
    · rintro ⟨i, hi, hkey⟩
      exact ⟨hadm, i, hkey, fun j hj => hn.passed j (Nat.lt_of_le_of_lt hj hi)⟩

/-- **What an add that fails leaves behind.**  The sessions are what they were.  The keys that
it skipped because the loop held them for others are never issued again.  As long as the loop
holds what was skipped, all that is asked of the table later is answered as if the add had not
been. -/
theorem Reachable.refused_add_spec {offset : Token} {policy : Capacity}
    {s : Sessions (Evented ι)} (hs : Reachable offset policy s) {l : Loop} (hl : l.Reachable)
    {v : Evented ι} {f : Failure} (h : (s.add v l).1 = .error f) :
    ((∀ key, (s.add v l).2.1.slab.get? key = s.slab.get? key) ∧
      (s.add v l).2.1.slab.size = s.slab.size) ∧
    (∀ later : List (Step ι),
      (∀ p ∈ later, p.Alike ∧ ∀ key, s.Skips l key → p.here.system.isRegistered key = true) →
      ((s.add v l).2.1.serveAll (later.map fun p => (p.request, p.here))).1
        = (s.serveAll (later.map fun p => (p.request, p.there))).1) ∧
    (∀ key, s.Skips l key → v.token ≠ some key → ∀ later : List (Request ι × Loop),
      (∀ p ∈ later, p.2.Reachable) →
      .added (.ok key) ∉ ((s.add v l).2.1.serveAll later).1) := by
  have hwf := hs.wellFormed
  obtain ⟨n, htaken, hskips⟩ := taken_of_add_error hwf hl h
  have hget : ∀ key, (s.add v l).2.1.slab.get? key = s.slab.get? key := by
    intro key
    rw [htaken.get?_eq]
    split
    · next hk => rw [hk, (hwf.issue_spec n).1]
    · rfl
  refine ⟨⟨hget, htaken.live_eq⟩, fun later hlater => ?_, fun key hkey _ later hlater => ?_⟩
  · refine Spares.serveAll hlater ⟨hwf, htaken.wellFormed, hget, htaken.live_eq,
      htaken.offset_eq, htaken.policy_eq, ?_⟩
    rw [funext htaken.issue_eq]
    exact Slab.Thins.drop n fun i hi => (hskips _).mpr ⟨i, hi, rfl⟩
  · obtain ⟨i, hi, rfl⟩ := (hskips key).mp hkey
    refine Withdrawn.serveAll ⟨htaken.wellFormed, ?_, fun j => ?_⟩ hlater
    · rw [hget, (hwf.issue_spec i).1]
    · rw [htaken.issue_eq]
      intro heq
      have hij := hwf.issue_injective heq
      simp only [Option.toList_none, List.length_nil] at hij
      omega

/-! ### A refusal -/

/-- A host with two counters, under descriptors 0 and 1. -/
def pairHost : Host :=
  { Host.initial .silent with descriptors := #[some (.counter .zero), some (.counter .zero)] }

/-- A new loop on it. -/
def pairLoop : Loop where
  host := (System.init (.standard .live) pairHost).2
  system := (System.init (.standard .live) pairHost).1.toOption.getD .absent

/-- The loop after one of the counters has been registered. -/
def busyLoop : Loop := (pairLoop.register (some 0) .readable).2

/-- No sessions. -/
def noSessions : Sessions (Evented Notifier) := .empty 0 .unbounded

/-- A session whose descriptor is gone. -/
def lost : Evented Notifier := .new .hollow .readable

/-- A session over the other counter. -/
def sound : Evented Notifier := .new ⟨some 1⟩ .readable

theorem busyLoop_reachable : busyLoop.Reachable := by
  have hstart : pairLoop.Reachable := .init (h := pairHost) rfl
  exact hstart.serve (.register (some 0) .readable)

/-- While the counter is registered, the next session comes after it in either case. -/
theorem refused_add_spec_noSessions :
    (noSessions.add lost busyLoop).1 = .error (.os .control .badDescriptor) ∧
    noSessions.Skips busyLoop 0 ∧
    ((noSessions.add lost busyLoop).2.1.serveAll [(.add sound, busyLoop), (.remove 1, busyLoop),
      (.add sound, busyLoop)]).1
        = (noSessions.serveAll [(.add sound, busyLoop), (.remove 1, busyLoop),
          (.add sound, busyLoop)]).1 ∧
    .added (.ok 0) ∉ ((noSessions.add lost busyLoop).2.1.serveAll [(.add sound, busyLoop)]).1 := by
  have hfail : (noSessions.add lost busyLoop).1 = .error (.os .control .badDescriptor) := by
    decide +kernel
  have hzero : noSessions.slab.issue 0 = 0 := rfl
  have hheld : busyLoop.system.isRegistered 0 = true := by decide +kernel
  have hskips : noSessions.Skips busyLoop 0 := by
    refine ⟨rfl, 0, hzero, fun i hi => ?_⟩
    obtain rfl := Nat.le_zero.mp hi
    rw [hzero]
    exact hheld
  -- the key after it is vacant, so nothing else is skipped
  have honly : ∀ key, noSessions.Skips busyLoop key → key = 0 := by
    rintro key ⟨-, n, rfl, hall⟩
    cases n with
    | zero => rfl
    | succ n =>
      have hone := hall 1 (by omega)
      have hfree : busyLoop.system.isRegistered (noSessions.slab.issue 1) = false := by
        decide +kernel
      rw [hfree] at hone
      cases hone
  have hempty : Reachable 0 .unbounded noSessions := .empty
  have hspec := hempty.refused_add_spec busyLoop_reachable hfail
  refine ⟨hfail, hskips, ?_, ?_⟩
  · refine hspec.2.1 [⟨.add sound, busyLoop, busyLoop⟩, ⟨.remove 1, busyLoop, busyLoop⟩,
      ⟨.add sound, busyLoop, busyLoop⟩] fun p hp => ⟨?_, fun key hkey => ?_⟩
    · have hloops : p.here = busyLoop ∧ p.there = busyLoop := by
        simp only [List.mem_cons, List.not_mem_nil, or_false] at hp
        rcases hp with rfl | rfl | rfl <;> exact ⟨rfl, rfl⟩
      refine ⟨?_, ?_, fun key => ?_, fun v _ key => ?_⟩
      · rw [hloops.1]; exact busyLoop_reachable
      · rw [hloops.2]; exact busyLoop_reachable
      · rw [hloops.1, hloops.2]
      · rw [hloops.1, hloops.2]
    · simp only [List.mem_cons, List.not_mem_nil, or_false] at hp
      rw [honly key hkey]
      rcases hp with rfl | rfl | rfl <;> exact hheld
  · refine hspec.2.2 0 hskips (by decide) _ fun p hp => ?_
    rw [List.mem_singleton] at hp
    rw [hp]
    exact busyLoop_reachable

/-- Once the counter gives its token back, a table that has skipped it does not issue it, and
one that has not does. -/
theorem not_restored_of_refused_add :
    (noSessions.add lost busyLoop).1 = .error (.os .control .badDescriptor) ∧
    (⟨.add sound, (busyLoop.deregister 0).2, (busyLoop.deregister 0).2⟩ : Step Notifier).Alike ∧
    ((noSessions.add lost busyLoop).2.1.add sound (busyLoop.deregister 0).2).1 = .ok 1 ∧
    (noSessions.add sound (busyLoop.deregister 0).2).1 = .ok 0 := by
  have hfree : (busyLoop.deregister 0).2.Reachable := .serve (.deregister 0) busyLoop_reachable
  exact ⟨by decide +kernel, ⟨hfree, hfree, fun _ => rfl, fun _ _ _ => rfl⟩, by decide +kernel,
    by decide +kernel⟩

end Sessions
end EventLoop

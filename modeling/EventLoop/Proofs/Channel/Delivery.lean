import EventLoop.Proofs.Channel.Fanout
import EventLoop.Proofs.Channel.Publishing

/-!
# What the subscribers of a broadcast receive

Full, waiting and departed subscribers meet in one publication, and what becomes of one
of them must not touch the others.  The channel of each subscriber is kept in agreement
with the log, with who waits at it, and with whether its receiver is somewhere.

## Main definitions

* `Fanout.Delivery` — what subscribers and publishers may rely on.
* `Fanout.Agrees` — the invariant for the channel of one subscriber.
* `Fanout.Kept` — the invariant.

## Main results

* `Kept.send` — a publication keeps the invariant.
* `Kept.act` — **every step keeps the invariant.**
* `run_delivers` — **the subscribers are served as they should after every run.**
-/

namespace EventLoop

variable {α : Type}

namespace Fanout

/-! ### What users may rely on -/

/-- A list names the subscribers with a property, all of them and nobody else, each once and in
the order in which they came. -/
structure Lists (log : List (Answer α)) (P : Nat → Prop) (ids : List Nat) : Prop where
  sublist : ids.Sublist (subscribed log)
  nodup : ids.Nodup
  mem_iff : ∀ id, id ∈ ids ↔ id ∈ subscribed log ∧ P id

/-- What subscribers and publishers may rely on, after the answers in the log. -/
structure Delivery (capacity : Capacity) (log : List (Answer α)) (s : Fanout α) : Prop where
  /-- Everybody who holds a receiver has subscribed. -/
  known : ∀ id, s.Live id → id ∈ subscribed log
  /-- What a subscriber has received and then what is queued for it is what was sent after it
  came, less what it refused. -/
  conserved : ∀ id, s.Live id → owed id log = got id log ++ s.channels.queue id
  /-- Whoever subscribes through a copy, at a place that holds no receiver, gets the receiver of a
  subscriber that was not there before, and is one of the subscribers from then on. -/
  subscribe : ∀ p ∈ s.copies, ∀ q, s.receivers q = none →
    ∃ id ∉ subscribed log, (s.act (.subscribe p q)).1 = .subscribed id ∧
      (s.act (.subscribe p q)).2.receivers q = some id ∧
      (∀ j, (s.act (.subscribe p q)).2.Live j ↔ s.Live j ∨ j = id)
  /-- A value sent through any copy is refused if a subscriber cannot take it, and only then.
  The failure names those who could not, and afterwards the list of subscribers is that of
  those who are there. -/
  send : ∀ p ∈ s.copies, ∀ v, ∃ r, (s.act (.send p v)).1 = .sent v r ∧
    (failureKind? r = none ∨ failureKind? r = some .channelFull) ∧
    (failureKind? r = some .channelFull ↔ ∃ id, s.Live id ∧ s.Full capacity id) ∧
    Lists log (fun id => s.Live id ∧ s.Full capacity id) (named r) ∧
    (∀ id, (s.act (.send p v)).2.Live id ↔ s.Live id) ∧
    Lists log s.Live (s.act (.send p v)).2.broadcast.subscribers

/-! ### The invariant -/

/-- The channel of a subscriber agrees with who waits at it, whether the receiver is there,
what the subscriber was to get and what it has received. -/
structure Agrees (capacity : Capacity) (waiting : Nat) (live : Prop) (owed got : List α)
    (c : Channel α) : Prop where
  capacity_eq : c.capacity = capacity
  parked_eq : c.parked = waiting
  live_iff : c.hasReceiver = true ↔ live
  conserved : live → owed = got ++ c.queue

namespace Agrees

variable {capacity : Capacity} {n : Nat} {live : Prop} {owed got : List α} {c c' : Channel α}
  (hs : Agrees capacity n live owed got c)

include hs

theorem parked (m : Nat) : Agrees capacity m live owed got { c with parked := m } :=
  ⟨hs.capacity_eq, rfl, hs.live_iff, hs.conserved⟩

theorem senders (m : Nat) : Agrees capacity n live owed got { c with senders := m } :=
  ⟨hs.capacity_eq, hs.parked_eq, hs.live_iff, hs.conserved⟩

theorem take {r : Except Failure α} (ht : c.Takes r c') :
    Agrees capacity n live owed (got ++ r.toOption.toList) c' := by
  cases ht with
  | nothing hq =>
    refine ⟨hs.capacity_eq, hs.parked_eq, hs.live_iff, fun hl => ?_⟩
    simpa [Except.toOption] using hs.conserved hl
  | @value v rest hq =>
    refine ⟨hs.capacity_eq, hs.parked_eq, hs.live_iff, fun hl => ?_⟩
    simpa [Except.toOption, hq] using hs.conserved hl

theorem offered (v : α) : Agrees capacity n live
    (if c.refuses then owed else owed ++ [v]) got (c.offered v) := by
  unfold Channel.offered
  by_cases htakes : (c.hasReceiver && !c.isFull) = true
  · have hrefuses : c.refuses = false := by
      obtain ⟨hl, hf⟩ := Bool.and_eq_true_iff.mp htakes
      rw [Bool.not_eq_eq_eq_not, Bool.not_true] at hf
      simp [Channel.refuses, hf]
    rw [if_pos htakes, hrefuses]
    refine ⟨hs.capacity_eq, hs.parked_eq, hs.live_iff, fun hl => ?_⟩
    simp [hs.conserved hl]
  · rw [if_neg htakes]
    refine ⟨hs.capacity_eq, hs.parked_eq, hs.live_iff, fun hl => ?_⟩
    -- a receiver that is there and takes nothing refuses
    have hlive := hs.live_iff.mpr hl
    have hrefuses : c.refuses = true := by simpa [Channel.refuses, hlive] using htakes
    rw [hrefuses, if_pos rfl]
    exact hs.conserved hl

theorem abandon : Agrees capacity n False owed got c.abandon :=
  ⟨hs.capacity_eq, hs.parked_eq, by simp [Channel.abandon], False.elim⟩

/-- Without a receiver nothing is owed to anybody. -/
theorem of_dead (hdead : ¬ live) (owed' got' : List α) :
    Agrees capacity n live owed' got' c :=
  ⟨hs.capacity_eq, hs.parked_eq, hs.live_iff, fun hl => absurd hl hdead⟩

omit hs in
/-- A receive comes back with what it took. -/
theorem received {log : List (Answer α)} {id : Nat} {r : Except Failure α}
    (hs : Agrees capacity n live (Fanout.owed id log) (Fanout.got id log) c)
    (hid : id ∈ subscribed log) (ht : c.Takes r c') :
    Agrees capacity n live (Fanout.owed id (log ++ [.received id r]))
      (Fanout.got id (log ++ [.received id r])) c' := by
  rw [owed_concat hid, got_concat hid]
  simpa [Answer.owed?, Answer.got?] using hs.take ht

end Agrees

/-- What was told of a receive concerns one subscriber. -/
theorem received_quiet {id j : Nat} (hj : j ≠ id) (r : Except Failure α) :
    (Answer.received id r).owed? j = none ∧ (Answer.received id r).got? j = none :=
  ⟨rfl, if_neg (Ne.symm hj)⟩

/-- A call that waited at a subscriber is one of those that wait there. -/
theorem waiting_eraseIdx {s : Fanout α} {n id : Nat} {w : Patience}
    (hn : s.calls[n]? = some (id, w)) :
    s.waiting id = (s.calls.eraseIdx n).countP (·.1 == id) + 1 ∧
    (∀ j ≠ id, (s.calls.eraseIdx n).countP (·.1 == j) = s.waiting j) := by
  obtain ⟨hlt, hget⟩ := List.getElem?_eq_some_iff.mp hn
  have hperm := List.getElem_cons_eraseIdx_perm hlt
  rw [hget] at hperm
  constructor
  · rw [waiting, ← hperm.countP_eq, List.countP_cons_of_pos]
    exact beq_self_eq_true id
  · intro j hj
    rw [waiting, ← hperm.countP_eq, List.countP_cons_of_neg]
    simpa using Ne.symm hj

/-- The broadcast, the channels and the holders agree with each other and with what was told. -/
structure Kept (capacity : Capacity) (log : List (Answer α)) (s : Fanout α) : Prop where
  capacity_eq : s.broadcast.capacity = capacity
  nodup : (subscribed log).Nodup
  below : ∀ id ∈ subscribed log, id < s.host.channels
  called : ∀ call ∈ s.calls, call.1 ∈ subscribed log
  holds : ∀ p id, s.receivers p = some id → (s.channels.get? id).isSome = true
  unique : ∀ p q id, s.receivers p = some id → s.receivers q = some id → p = q
  agrees : ∀ id c, s.channels.get? id = some c → id ∈ subscribed log ∧
    Agrees capacity (s.waiting id) (s.Live id) (owed id log) (got id log) c
  listed : s.broadcast.subscribers.Sublist (subscribed log)
  live_listed : ∀ id, s.Live id → id ∈ s.broadcast.subscribers

namespace Kept

variable {capacity : Capacity} {log : List (Answer α)} {s : Fanout α}

theorem start (capacity : Capacity) (h : Host) :
    Kept capacity [] (Fanout.start capacity h : Fanout α) where
  capacity_eq := rfl
  nodup := List.nodup_nil
  below id hid := by cases hid
  called call hc := by cases hc
  holds p id hp := by cases hp
  unique p q id hp := by cases hp
  agrees id c hc := by cases hc
  listed := List.Sublist.refl _
  live_listed id hl := by
    obtain ⟨p, hp⟩ := hl
    cases hp

variable (hs : s.Kept capacity log)

include hs

theorem isLive_iff (id : Nat) : Broadcast.isLive s.channels id = true ↔ s.Live id := by
  rw [Broadcast.isLive_iff]
  constructor
  · rintro ⟨c, hc, hlive⟩
    exact (hs.agrees id c hc).2.live_iff.mp hlive
  · intro hl
    obtain ⟨p, hp⟩ := hl
    obtain ⟨c, hc⟩ := Option.isSome_iff_exists.mp (hs.holds p id hp)
    exact ⟨c, hc, (hs.agrees id c hc).2.live_iff.mpr ⟨p, hp⟩⟩

/-- Nothing was told. -/
theorem silence : s.Kept capacity (log ++ [.silence]) := by
  have hsame : subscribed (log ++ [Answer.silence]) = subscribed log := subscribed_of_none rfl
  refine ⟨hs.capacity_eq, ?_, ?_, ?_, hs.holds, hs.unique, ?_, ?_, hs.live_listed⟩
  · rw [hsame]
    exact hs.nodup
  · rw [hsame]
    exact hs.below
  · rw [hsame]
    exact hs.called
  · intro id c hc
    obtain ⟨hid, ha⟩ := hs.agrees id c hc
    rw [hsame, owed_of_quiet hid rfl, got_of_quiet hid rfl]
    exact ⟨hid, ha⟩
  · rw [hsame]
    exact hs.listed

/-- Channels may lose senders, and those without a receiver may go. -/
theorem fades {t : Channels α} {h : Host} {copies : Finset Nat} (ht : s.channels.Fades t)
    (hh : h.channels = s.host.channels) :
    Kept capacity log { s with channels := t, host := h, copies := copies } where
  capacity_eq := hs.capacity_eq
  nodup := hs.nodup
  below id hid := hh ▸ hs.below id hid
  called := hs.called
  holds p id hp := by
    obtain ⟨hnone, hdead⟩ | ⟨c, n, hc, hc'⟩ := ht id
    · cases hdead.symm.trans ((hs.isLive_iff id).mpr ⟨p, hp⟩)
    · exact Option.isSome_iff_exists.mpr ⟨_, hc'⟩
  unique := hs.unique
  agrees id c hc := by
    obtain ⟨hnone, -⟩ | ⟨d, n, hd, hd'⟩ := ht id
    · cases hnone.symm.trans hc
    · cases hd'.symm.trans hc
      exact ⟨(hs.agrees id d hd).1, (hs.agrees id d hd).2.senders n⟩
  listed := hs.listed
  live_listed := hs.live_listed

/-- One channel changes, with those who wait at it and what is told of it. -/
theorem touch {id : Nat} {c c' : Channel α} {t : Channels α} {h : Host}
    {calls : List (Nat × Patience)} {a : Answer α} (hc : s.channels.get? id = some c)
    (ht : ∀ j, t.get? j = if j = id then some c' else s.channels.get? j)
    (hh : h.channels = s.host.channels) (hsub : a.subscriber? = none)
    (hquiet : ∀ j ≠ id, a.owed? j = none ∧ a.got? j = none)
    (hcalls : ∀ j ≠ id, calls.countP (·.1 == j) = s.waiting j)
    (hcalled : ∀ call ∈ calls, call.1 ∈ subscribed log)
    (ha : Agrees capacity (calls.countP (·.1 == id)) (s.Live id) (owed id (log ++ [a]))
      (got id (log ++ [a])) c') :
    Kept capacity (log ++ [a]) { s with channels := t, host := h, calls := calls } := by
  have hsame : subscribed (log ++ [a]) = subscribed log := subscribed_of_none hsub
  refine ⟨hs.capacity_eq, ?_, ?_, ?_, fun p j hp => ?_, hs.unique, fun j d hd => ?_, ?_,
    hs.live_listed⟩
  · rw [hsame]
    exact hs.nodup
  · rw [hsame, hh]
    exact hs.below
  · rw [hsame]
    exact hcalled
  · rw [ht]
    split
    · rfl
    · exact hs.holds p j hp
  · rw [ht] at hd
    rw [hsame]
    by_cases hj : j = id
    · subst hj
      rw [if_pos rfl] at hd
      cases hd
      exact ⟨(hs.agrees j c hc).1, ha⟩
    · rw [if_neg hj] at hd
      obtain ⟨hid, hd⟩ := hs.agrees j d hd
      obtain ⟨howed, hgot⟩ := hquiet j hj
      rw [owed_of_quiet hid howed, got_of_quiet hid hgot]
      rw [← hcalls j hj] at hd
      exact ⟨hid, hd⟩
  · rw [hsame]
    exact hs.listed

theorem exists_channel {id : Nat} (hid : s.Live id) : ∃ c, s.channels.get? id = some c ∧
    c.hasReceiver = true := by
  obtain ⟨p, hp⟩ := hid
  obtain ⟨c, hc⟩ := Option.isSome_iff_exists.mp (hs.holds p id hp)
  exact ⟨c, hc, (hs.agrees id c hc).2.live_iff.mpr ⟨p, hp⟩⟩

/-! #### Receives -/

theorem poll {id : Nat} (hid : s.Live id) :
    Kept capacity (log ++ [(s.poll id).1]) (s.poll id).2 := by
  obtain ⟨c, hc, -⟩ := hs.exists_channel hid
  obtain ⟨hmem, ha⟩ := hs.agrees id c hc
  obtain ⟨c', htake, hget⟩ := Channels.receive_spec hc s.host
  exact hs.touch hc hget (s.channels.channels_receive id s.host) rfl
    (fun j hj => received_quiet hj _) (fun j _ => rfl) hs.called (ha.received hmem htake)

/-- A receive stops waiting at a channel that still counts it. -/
theorem finish {id m : Nat} {c : Channel α} {t : Channels α} {h : Host}
    {others : List (Nat × Patience)} (hc : s.channels.get? id = some c)
    (ht : ∀ j, t.get? j = if j = id then some { c with parked := m } else s.channels.get? j)
    (hh : h.channels = s.host.channels) (hm : m = others.countP (·.1 == id) + 1)
    (hothers : ∀ j ≠ id, others.countP (·.1 == j) = s.waiting j)
    (hcalled : ∀ call ∈ others, call.1 ∈ subscribed log) :
    Kept capacity (log ++ [(Fanout.finish { s with channels := t, host := h } id others).1])
      (Fanout.finish { s with channels := t, host := h } id others).2 := by
  obtain ⟨hmem, ha⟩ := hs.agrees id c hc
  have hid : t.get? id = some { c with parked := m } := by rw [ht, if_pos rfl]
  have htake := ({ c with parked := m } : Channel α).takes_resume h
  have hnumber := ({ c with parked := m } : Channel α).channels_resume h
  rcases hres : ({ c with parked := m } : Channel α).resume h with ⟨r, c', h'⟩
  rw [hres] at htake hnumber
  have heq : Fanout.finish { s with channels := t, host := h } id others = (.received id r,
      { s with channels := t.set id c', host := h', calls := others }) := by
    unfold Fanout.finish
    simp only [hid, hres]
  have hget : ∀ j, (t.set id c').get? j = if j = id then some c' else s.channels.get? j := by
    intro j
    by_cases hj : j = id
    · rw [if_pos hj, hj, Channels.get?_set, hid]
      rfl
    · rw [if_neg hj, Channels.get?_set_of_ne _ _ hj, ht, if_neg hj]
  rw [heq]
  -- the call counts itself out first, and takes from a channel that is otherwise the same
  refine hs.touch hc hget (hnumber.trans hh) rfl (fun j hj => received_quiet hj _)
    hothers hcalled (Agrees.received (ha.parked _) hmem ?_)
  rwa [hm, Nat.add_sub_cancel] at htake

/-- The call at one place among those that wait stops. -/
theorem finish_at {n id : Nat} {w : Patience} (hn : s.calls[n]? = some (id, w)) :
    Kept capacity (log ++ [(s.finish id (s.calls.eraseIdx n)).1])
      (s.finish id (s.calls.eraseIdx n)).2 := by
  obtain ⟨hwait, hothers⟩ := waiting_eraseIdx hn
  have hcalled : ∀ call ∈ s.calls.eraseIdx n, call.1 ∈ subscribed log :=
    fun call hcall => hs.called call (List.mem_of_mem_eraseIdx hcall)
  cases hc : s.channels.get? id with
  | none =>
    -- the channel is gone, and the call with it
    have heq : s.finish id (s.calls.eraseIdx n)
        = (.silence, { s with calls := s.calls.eraseIdx n }) := by
      unfold Fanout.finish
      rw [hc]
    rw [heq]
    refine silence ⟨hs.capacity_eq, hs.nodup, hs.below, hcalled, hs.holds, hs.unique,
      fun j c hj => ?_, hs.listed, hs.live_listed⟩
    have hne : j ≠ id := by
      rintro rfl
      cases hc.symm.trans hj
    obtain ⟨hmem, ha⟩ := hs.agrees j c hj
    rw [← hothers j hne] at ha
    exact ⟨hmem, ha⟩
  | some c =>
    have hparked := (hs.agrees id c hc).2.parked_eq
    refine hs.finish (m := c.parked) hc (fun j => ?_) rfl (hparked.trans hwait) hothers hcalled
    by_cases hj : j = id
    · rw [if_pos hj, hj]
      exact hc
    · rw [if_neg hj]

theorem await {id : Nat} (hid : s.Live id) (w : Patience) :
    Kept capacity (log ++ [(s.await id w).1]) (s.await id w).2 := by
  obtain ⟨c, hc, hlive⟩ := hs.exists_channel hid
  obtain ⟨hmem, ha⟩ := hs.agrees id c hc
  have horphan : c.park.isOrphan = false := by simp [Channel.isOrphan, Channel.park, hlive]
  have hpark : ∀ j, (s.park id).channels.get? j
      = if j = id then some { c with parked := c.parked + 1 } else s.channels.get? j := by
    intro j
    show (s.channels.modify id Channel.park s.host).1.get? j = _
    rw [Channels.get?_modify, hc, Option.bind_some, horphan]
    rfl
  have hnumber : (s.park id).host.channels = s.host.channels :=
    s.channels.channels_modify id Channel.park s.host
  unfold Fanout.await
  by_cases hcan : (s.park id).canResume id = true
  · rw [if_pos hcan]
    exact hs.finish hc hpark hnumber (congrArg (· + 1) ha.parked_eq) (fun j _ => rfl) hs.called
  · rw [if_neg hcan]
    refine hs.touch hc hpark hnumber rfl (fun j _ => ⟨rfl, rfl⟩) (fun j hj => ?_)
      (fun call hcall => ?_) ?_
    · rw [List.countP_append, List.countP_singleton, if_neg (by simpa using Ne.symm hj)]
      rfl
    · obtain hcall | hcall := List.mem_append.mp hcall
      · exact hs.called call hcall
      · rw [List.mem_singleton.mp hcall]
        exact hmem
    · rw [owed_of_quiet hmem rfl, got_of_quiet hmem rfl]
      have hcount : (s.calls ++ [(id, w)]).countP (·.1 == id) = c.parked + 1 := by
        rw [List.countP_append, List.countP_singleton, if_pos (by simp), ha.parked_eq]
        rfl
      rw [hcount]
      exact ha.parked (c.parked + 1)

/-! #### Receivers -/

/-- The receiver at a place goes. -/
theorem close (p : Nat) : Kept capacity log (s.close p) := by
  unfold Fanout.close
  cases hp : s.receivers p with
  | none => exact hs
  | some id =>
    obtain ⟨c, hc, -⟩ := hs.exists_channel ⟨p, hp⟩
    have hget := s.channels.get?_modify id Channel.abandon s.host
    have hnumber := s.channels.channels_modify id Channel.abandon s.host
    -- nobody else holds the receiver
    have hholder : ∀ q j, Function.update s.receivers p none q = some j ↔
        s.receivers q = some j ∧ j ≠ id := by
      intro q j
      by_cases hq : q = p
      · subst hq
        rw [Function.update_self, hp]
        simp [eq_comm]
      · rw [Function.update_of_ne hq]
        refine ⟨fun h => ⟨h, ?_⟩, fun h => h.1⟩
        rintro rfl
        exact hq (hs.unique q p j h hp)
    dsimp only
    refine ⟨hs.capacity_eq, hs.nodup, fun j hj => hnumber ▸ hs.below j hj, hs.called,
      fun q j hq => ?_, fun q r j hq hr => ?_, fun j d hd => ?_, hs.listed, fun j hl => ?_⟩
    · obtain ⟨hq, hj⟩ := (hholder q j).mp hq
      rw [hget, if_neg hj]
      exact hs.holds q j hq
    · exact hs.unique q r j ((hholder q j).mp hq).1 ((hholder r j).mp hr).1
    · have hlive : (∃ q, Function.update s.receivers p none q = some j) ↔
          s.Live j ∧ j ≠ id := by
        simp only [hholder, exists_and_right]
        rfl
      rw [hget] at hd
      by_cases hj : j = id
      · subst hj
        rw [if_pos rfl, hc, Option.bind_some] at hd
        split at hd
        · cases hd
        · cases hd
          obtain ⟨hmem, ha⟩ := hs.agrees j c hc
          have hdead : ¬ ∃ q, Function.update s.receivers p none q = some j :=
            fun h => (hlive.mp h).2 rfl
          refine ⟨hmem, ?_⟩
          have := ha.abandon
          rwa [← iff_false_intro hdead] at this
      · rw [if_neg hj] at hd
        obtain ⟨hmem, ha⟩ := hs.agrees j d hd
        refine ⟨hmem, ?_⟩
        have hsame : (∃ q, Function.update s.receivers p none q = some j) ↔ s.Live j :=
          hlive.trans (and_iff_left hj)
        rwa [← hsame] at ha
    · obtain ⟨q, hq⟩ := hl
      exact hs.live_listed j ⟨q, ((hholder q j).mp hq).1⟩

/-- Receivers that swap places stay where they can be found. -/
theorem swap (p q : Nat) : Kept capacity log (s.swap p q) := by
  have hlive : ∀ id, (s.swap p q).Live id ↔ s.Live id := by
    intro id
    constructor
    · rintro ⟨r, hr⟩
      exact ⟨_, hr⟩
    · rintro ⟨r, hr⟩
      refine ⟨Equiv.swap p q r, ?_⟩
      show s.receivers (Equiv.swap p q (Equiv.swap p q r)) = some id
      rwa [Equiv.swap_apply_self]
  refine ⟨hs.capacity_eq, hs.nodup, hs.below, hs.called, fun r id hr => hs.holds _ id hr,
    fun r₁ r₂ id h₁ h₂ => ?_, fun id c hc => ?_, hs.listed, fun id hl => ?_⟩
  · exact (Equiv.swap p q).injective (hs.unique _ _ id h₁ h₂)
  · obtain ⟨hmem, ha⟩ := hs.agrees id c hc
    rw [← hlive id] at ha
    exact ⟨hmem, ha⟩
  · exact hs.live_listed id ((hlive id).mp hl)

/-! #### The broadcast -/

theorem discard (p : Nat) : Kept capacity log (s.discard p) := by
  unfold Fanout.discard
  split
  · split
    · obtain ⟨hfades, hnumber⟩ :=
        Channels.fades_detachAll s.broadcast.subscribers s.channels s.host
      exact hs.fades hfades hnumber
    · exact hs.fades (.refl s.channels) rfl
  · exact hs

omit hs in
/-- The receiver of a new subscriber comes to a place that holds none. -/
theorem receivers_subscribe {p : Nat} (hp : s.receivers p = none) (q j : Nat) :
    (s.subscribe p).2.receivers q = some j ↔
      s.receivers q = some j ∨ (q = p ∧ j = s.host.channels) := by
  show Function.update s.receivers p (some s.host.channels) q = some j ↔ _
  by_cases hq : q = p
  · subst hq
    rw [Function.update_self, hp]
    simp [eq_comm]
  · rw [Function.update_of_ne hq]
    simp [hq]

omit hs in
theorem live_subscribe {p : Nat} (hp : s.receivers p = none) (j : Nat) :
    (s.subscribe p).2.Live j ↔ s.Live j ∨ j = s.host.channels := by
  simp only [Live, receivers_subscribe hp, exists_or, exists_eq_left]

/-- The number of the next subscriber was never given before. -/
theorem fresh : s.host.channels ∉ subscribed log :=
  fun hmem => Nat.lt_irrefl _ (hs.below _ hmem)

/-- A new subscriber comes, to a place that holds no receiver. -/
theorem subscribe {p : Nat} (hp : s.receivers p = none) :
    Kept capacity (log ++ [(s.subscribe p).1]) (s.subscribe p).2 := by
  have hnew : s.host.channels ∉ subscribed log := hs.fresh
  have hfresh : s.channels.get? s.host.channels = none := by
    cases hc : s.channels.get? s.host.channels with
    | none => rfl
    | some c => exact absurd (hs.agrees _ c hc).1 hnew
  have hnumber : (s.subscribe p).2.host.channels = s.host.channels + 1 :=
    Notifier.channels_create { s.host with channels := s.host.channels + 1 }
  have hsubscribed : subscribed (log ++ [(s.subscribe p).1])
      = subscribed log ++ [s.host.channels] := by
    rw [subscribed_concat]
    rfl
  have hget : ∀ j, (s.subscribe p).2.channels.get? j = if j = s.host.channels then
      some (Channel.create s.broadcast.capacity s.host).1.attach else s.channels.get? j :=
    fun j => Channels.get?_add (c := (Channel.create s.broadcast.capacity s.host).1.attach) hfresh j
  have hholder := receivers_subscribe hp
  have hlive := live_subscribe hp
  have hold : ∀ j, s.Live j → j ≠ s.host.channels := by
    rintro j hj rfl
    obtain ⟨c, hc, -⟩ := hs.exists_channel hj
    cases hfresh.symm.trans hc
  refine ⟨hs.capacity_eq, ?_, fun j hj => ?_, fun call hcall => ?_, fun q j hq => ?_,
    fun q r j hq hr => ?_, fun j c hc => ?_, ?_, fun j hj => ?_⟩
  · rw [hsubscribed, List.nodup_append]
    refine ⟨hs.nodup, List.nodup_singleton _, fun j hj k hk => ?_⟩
    rw [List.mem_singleton] at hk
    rintro rfl
    exact hnew (hk ▸ hj)
  · rw [hsubscribed, List.mem_append, List.mem_singleton] at hj
    rw [hnumber]
    obtain hj | rfl := hj
    · exact Nat.lt_succ_of_lt (hs.below j hj)
    · exact Nat.lt_succ_self _
  · rw [hsubscribed]
    exact List.mem_append_left _ (hs.called call hcall)
  · rw [hget]
    obtain hq | ⟨rfl, rfl⟩ := (hholder q j).mp hq
    · rw [if_neg (hold j ⟨q, hq⟩)]
      exact hs.holds q j hq
    · rw [if_pos rfl]
      rfl
  · obtain hq' | ⟨rfl, rfl⟩ := (hholder q j).mp hq
    · obtain hr' | ⟨rfl, rfl⟩ := (hholder r j).mp hr
      · exact hs.unique q r j hq' hr'
      · exact absurd rfl (hold _ ⟨q, hq'⟩)
    · obtain hr' | ⟨rfl, -⟩ := (hholder r _).mp hr
      · exact absurd rfl (hold _ ⟨r, hr'⟩)
      · rfl
  · rw [hget] at hc
    rw [hsubscribed]
    by_cases hj : j = s.host.channels
    · -- nobody waits at a channel that was not there before
      rw [if_pos hj] at hc
      cases hc
      have hwait : (s.subscribe p).2.waiting j = 0 := by
        rw [waiting, List.countP_eq_zero]
        intro call hcall heq
        exact hnew (hj ▸ eq_of_beq heq ▸ hs.called call hcall)
      rw [hwait, owed_of_new (hj ▸ hnew), got_of_new (hj ▸ hnew)]
      refine ⟨List.mem_append_right _ (by simp [hj]), hs.capacity_eq, rfl, ?_, fun _ => rfl⟩
      exact iff_of_true rfl ((hlive j).mpr (.inr hj))
    · rw [if_neg hj] at hc
      obtain ⟨hmem, ha⟩ := hs.agrees j c hc
      have hsame : (s.subscribe p).2.Live j ↔ s.Live j := (hlive j).trans (or_iff_left hj)
      rw [← hsame] at ha
      rw [owed_of_quiet hmem rfl, got_of_quiet hmem rfl]
      exact ⟨List.mem_append_left _ hmem, ha⟩
  · rw [hsubscribed]
    exact hs.listed.append_right _
  · obtain hj | rfl := (hlive j).mp hj
    · exact List.mem_append_left _ (hs.live_listed j hj)
    · exact List.mem_append_right _ (List.mem_singleton.mpr rfl)

/-- A channel takes no value exactly if its subscriber is there and cannot take one. -/
theorem refuses_iff {id : Nat} {c : Channel α} (hc : s.channels.get? id = some c) :
    c.refuses = true ↔ s.Live id ∧ s.Full capacity id := by
  obtain ⟨-, ha⟩ := hs.agrees id c hc
  have hqueue : s.channels.queue id = c.queue := Channels.queue_of_get? hc
  have hfull : c.isFull = true ↔ s.Full capacity id := by
    unfold Channel.isFull Full
    rw [ha.capacity_eq, hqueue, ← ha.parked_eq]
    cases capacity with
    | unbounded => simp
    | bounded n => cases n <;> simp
  rw [Channel.refuses, Bool.and_eq_true_iff, ha.live_iff, hfull]

/-- A publication is refused by those who are there and cannot take a value. -/
theorem mem_refusers_iff (id : Nat) :
    id ∈ Broadcast.refusers s.channels s.broadcast.subscribers ↔
      s.Live id ∧ s.Full capacity id := by
  rw [Broadcast.refusers, List.mem_filter]
  constructor
  · rintro ⟨-, hrefuses⟩
    cases hc : s.channels.get? id with
    | none => rw [hc] at hrefuses; cases hrefuses
    | some c =>
      rw [hc] at hrefuses
      exact (hs.refuses_iff hc).mp hrefuses
  · intro h
    obtain ⟨c, hc, -⟩ := hs.exists_channel h.1
    refine ⟨hs.live_listed id h.1, ?_⟩
    rw [hc]
    exact (hs.refuses_iff hc).mpr h

/-- What a publication answers, and the broadcast it leaves. -/
theorem send_eq (v : α) : ∃ r, (s.send v).1 = .sent v r ∧
    named r = Broadcast.refusers s.channels s.broadcast.subscribers ∧
    (failureKind? r = none ∨ failureKind? r = some .channelFull) ∧
    (failureKind? r = some .channelFull ↔ named r ≠ []) ∧
    (s.send v).2.broadcast.subscribers
      = s.broadcast.subscribers.filter (Broadcast.isLive s.channels) := by
  have hsubscribers : s.broadcast.subscribers.Nodup := hs.listed.nodup hs.nodup
  obtain ⟨hr, hb, -, -⟩ := s.broadcast.publish_spec hsubscribers v s.channels s.host
  refine ⟨(s.broadcast.publish v s.channels s.host).1, rfl, ?_⟩
  have hlist : (s.send v).2.broadcast.subscribers
      = s.broadcast.subscribers.filter (Broadcast.isLive s.channels) := by
    show (s.broadcast.publish v s.channels s.host).2.1.subscribers = _
    rw [hb]
  rw [hr]
  cases hnone : Broadcast.refusers s.channels s.broadcast.subscribers with
  | nil => exact ⟨rfl, .inl rfl, by simp [failureKind?, named], hlist⟩
  | cons id rest =>
    refine ⟨rfl, .inr rfl, ?_, hlist⟩
    simp [failureKind?, named, Failure.kind, Failure.report]

theorem send (v : α) : Kept capacity (log ++ [(s.send v).1]) (s.send v).2 := by
  have hsubscribers : s.broadcast.subscribers.Nodup := hs.listed.nodup hs.nodup
  obtain ⟨r, hanswer, hnamed, -, -, hlist⟩ := hs.send_eq v
  obtain ⟨-, hb, ⟨t₁, hoffered, hfades⟩, hnumber⟩ :=
    s.broadcast.publish_spec hsubscribers v s.channels s.host
  have hsame : subscribed (log ++ [(s.send v).1]) = subscribed log :=
    subscribed_of_none (by rw [hanswer]; rfl)
  -- an offer takes no channel away
  have hlive : ∀ id, s.Live id → ∃ d, t₁.get? id = some d ∧ d.hasReceiver = true := by
    intro id hid
    obtain ⟨c, hc, hrec⟩ := hs.exists_channel hid
    rw [hoffered, hc, if_pos (hs.live_listed id hid)]
    exact ⟨_, rfl, by rw [Channel.hasReceiver_offered, hrec]⟩
  have hafter : ∀ id c, t₁.get? id = some c → id ∈ subscribed log ∧
      Agrees capacity (s.waiting id) (s.Live id) (owed id (log ++ [.sent v r]))
        (got id (log ++ [.sent v r])) c := by
    intro id c hc
    rw [hoffered] at hc
    by_cases hid : id ∈ s.broadcast.subscribers
    · rw [if_pos hid] at hc
      obtain ⟨d, hd, rfl⟩ := Option.map_eq_some_iff.mp hc
      obtain ⟨hmem, ha⟩ := hs.agrees id d hd
      refine ⟨hmem, ?_⟩
      have howed : owed id (log ++ [.sent v r])
          = if d.refuses then owed id log else owed id log ++ [v] := by
        rw [owed_concat hmem]
        simp only [Answer.owed?, hnamed, hs.mem_refusers_iff, ← hs.refuses_iff hd]
        cases d.refuses <;> simp
      rw [howed, got_of_quiet hmem rfl]
      exact ha.offered v
    · rw [if_neg hid] at hc
      obtain ⟨hmem, ha⟩ := hs.agrees id c hc
      exact ⟨hmem, ha.of_dead (fun hl => hid (hs.live_listed id hl)) _ _⟩
  refine ⟨?_, ?_, ?_, ?_, fun p id hp => ?_, hs.unique, fun id c hc => ?_, ?_, fun id hid => ?_⟩
  · show (s.broadcast.publish v s.channels s.host).2.1.capacity = capacity
    rw [hb]
    exact hs.capacity_eq
  · rw [hsame]
    exact hs.nodup
  · intro id hid
    rw [hsame] at hid
    show id < (s.broadcast.publish v s.channels s.host).2.2.2.channels
    rw [hnumber]
    exact hs.below id hid
  · rw [hsame]
    exact hs.called
  · obtain ⟨d, hd, hrec⟩ := hlive id ⟨p, hp⟩
    obtain ⟨hnone, hdead⟩ | ⟨c, n, hc, hc'⟩ := hfades id
    · cases hdead.symm.trans (Broadcast.isLive_iff.mpr ⟨d, hd, hrec⟩)
    · exact Option.isSome_iff_exists.mpr ⟨_, hc'⟩
  · rw [hsame, hanswer]
    obtain ⟨hnone, -⟩ | ⟨d, n, hd, hd'⟩ := hfades id
    · cases hnone.symm.trans hc
    · cases hd'.symm.trans hc
      obtain ⟨hmem, ha⟩ := hafter id d hd
      exact ⟨hmem, ha.senders n⟩
  · rw [hsame, hlist]
    exact List.filter_sublist.trans hs.listed
  · rw [hlist]
    exact List.mem_filter.mpr ⟨hs.live_listed id hid, (hs.isLive_iff id).mpr hid⟩

/-! #### Runs -/

/-- **Every step keeps the invariant.** -/
theorem act (a : Act α) : Kept capacity (log ++ [(s.act a).1]) (s.act a).2 := by
  cases a with
  | copy p q =>
    simp only [Fanout.act]
    refine silence ?_
    split
    · exact hs.fades (.refl s.channels) rfl
    · exact hs
  | discard p => exact (hs.discard p).silence
  | subscribe p q =>
    simp only [Fanout.act]
    split
    next hp => exact hs.subscribe hp.2
    next => exact hs.silence
  | send p v =>
    simp only [Fanout.act]
    split
    · exact hs.send v
    · exact hs.silence
  | receive p w =>
    simp only [Fanout.act]
    split
    next => exact hs.silence
    next id hp =>
      split
      · exact hs.poll ⟨p, hp⟩
      · exact hs.await ⟨p, hp⟩ w
  | wake n =>
    simp only [Fanout.act]
    split
    next => exact hs.silence
    next id w hn =>
      split
      · exact hs.finish_at hn
      · exact hs.silence
  | timeout n =>
    simp only [Fanout.act]
    split
    next id hn => exact hs.finish_at hn
    next => exact hs.silence
  | move p q =>
    simp only [Fanout.act]
    refine silence ?_
    split
    · exact hs
    · exact (hs.close q).swap p q
  | drop p => exact (hs.close p).silence
  | elsewhere h =>
    simp only [Fanout.act]
    refine silence ?_
    split
    next hle =>
      exact ⟨hs.capacity_eq, hs.nodup, fun id hid => Nat.lt_of_lt_of_le (hs.below id hid) hle,
        hs.called, hs.holds, hs.unique, hs.agrees, hs.listed, hs.live_listed⟩
    next => exact hs

omit hs in
theorem run (acts : List (Act α)) : ∀ {log : List (Answer α)} {s : Fanout α},
    s.Kept capacity log → Kept capacity (log ++ (s.run acts).1) (s.run acts).2 := by
  induction acts with
  | nil =>
    intro log s hs
    simpa [Fanout.run] using hs
  | cons a acts ih =>
    intro log s hs
    simpa [Fanout.run] using ih (hs.act a)

theorem delivery : Delivery capacity log s where
  known id hid := by
    obtain ⟨c, hc, -⟩ := hs.exists_channel hid
    exact (hs.agrees id c hc).1
  conserved id hid := by
    obtain ⟨c, hc, -⟩ := hs.exists_channel hid
    rw [Channels.queue_of_get? hc]
    exact (hs.agrees id c hc).2.conserved hid
  subscribe p hp q hq := by
    have hact : s.act (.subscribe p q) = s.subscribe q := if_pos ⟨hp, hq⟩
    rw [hact]
    exact ⟨s.host.channels, hs.fresh, rfl, (receivers_subscribe hq q _).mpr (.inr ⟨rfl, rfl⟩),
      live_subscribe hq⟩
  send p hp v := by
    have hsubscribers : s.broadcast.subscribers.Nodup := hs.listed.nodup hs.nodup
    obtain ⟨r, hanswer, hnamed, hkind, hfails, hlist⟩ := hs.send_eq v
    have hact : s.act (.send p v) = s.send v := if_pos hp
    have hknown : ∀ id, s.Live id → id ∈ subscribed log := by
      intro id hid
      obtain ⟨c, hc, -⟩ := hs.exists_channel hid
      exact (hs.agrees id c hc).1
    rw [hact]
    refine ⟨r, hanswer, hkind, ?_, ?_, fun id => Iff.rfl, ?_⟩
    · rw [hfails, hnamed]
      constructor
      · intro hne
        obtain ⟨id, hid⟩ := List.exists_mem_of_ne_nil _ hne
        exact ⟨id, (hs.mem_refusers_iff id).mp hid⟩
      · rintro ⟨id, hid⟩
        exact List.ne_nil_of_mem ((hs.mem_refusers_iff id).mpr hid)
    · rw [hnamed]
      refine ⟨List.filter_sublist.trans hs.listed, hsubscribers.filter _, fun id => ?_⟩
      rw [hs.mem_refusers_iff]
      exact ⟨fun h => ⟨hknown id h.1, h⟩, fun h => h.2⟩
    · rw [hlist]
      refine ⟨List.filter_sublist.trans hs.listed, hsubscribers.filter _, fun id => ?_⟩
      rw [List.mem_filter, hs.isLive_iff]
      exact ⟨fun h => ⟨hknown id h.2, h.2⟩, fun h => ⟨hs.live_listed id h.2, h.2⟩⟩

end Kept

/-- **The subscribers are served as they should after every run**, whatever the capacity of
their queues and whatever happens on the host in between. -/
theorem run_delivers (capacity : Capacity) (h : Host) (acts : List (Act α)) :
    Delivery capacity ((start capacity h : Fanout α).run acts).1
      ((start capacity h : Fanout α).run acts).2 :=
  (Kept.run acts (.start capacity h)).delivery

/-- Three subscribers with room for one value each. The first does not look at its value, the
second goes, and the third receives its own. -/
def neglectful : List (Act Nat) :=
  [.subscribe 0 0, .subscribe 0 1, .subscribe 0 2, .send 0 7, .receive 2 .hasty, .drop 1]

/-- The next value is refused by the first subscriber, which is still there, and not by the second.
The third has both values. -/
theorem run_delivers_neglectful :
    let s : Fanout Nat := ((start (.bounded 1) (Host.initial .silent)).run neglectful).2
    let later := (s.act (.send 0 8)).2.run [.receive 0 .hasty, .receive 2 .hasty]
    (s.act (.send 0 8)).1 = .sent 8 (.error (.subscribersFull [0])) ∧
      (s.act (.send 0 8)).2.broadcast.subscribers = [0, 2] ∧
      later.1 = [.received 0 (.ok 7), .received 2 (.ok 8)] ∧
      ∃ id, s.Live id ∧ s.Full (.bounded 1) id := by
  intro s later
  obtain ⟨r, hanswer, -, hrefused, -⟩ :=
    (run_delivers (.bounded 1) (Host.initial .silent) neglectful).send 0 (by decide) 8
  have hr : .error (.subscribersFull [0]) = r := (Answer.sent.inj hanswer).2
  exact ⟨rfl, rfl, rfl, hrefused.mp (hr ▸ rfl)⟩

end Fanout
end EventLoop

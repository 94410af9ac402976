import EventLoop.Proofs.Channel.Exchange

/-!
# Handing values over

A channel that can hold no values takes one only for a receive that waits.  The
value is queued until that receive looks again, or until its time is over, or until
another receive comes first; so there is a time between the send and the receive
in which a second value may be sent, a receive may give up, or the senders may go.

What keeps this sound is a count: there are never more values queued than receives
that wait.  Whoever stops waiting takes one value with it, if there is one, in the
same step.

A receive that waits sleeps, and has to be woken to look again.  A value that is
accepted wakes one sleeper; a receive that looks again and finds nothing goes back to
sleep.  (A sender that goes wakes all of them, a moment after its step.  Nothing here
relies on that.)

## Main definitions

* `Exchange.replies` — what receives have come back with, in order.
* `Exchange.stir`, `Exchange.vigil` — who of the receives that wait is awake after a
  step, and after a run.
* `Exchange.Effect` — what a step does to the queue and to the receives that wait.
* `Exchange.Rendezvous` — what senders and receiver may rely on.

## Main results

* `Effect.promised` — **no step queues more values than receives wait.**
* `replies_run` — **the values queued are what the next receives come back with**, in
  order and however these receives end.
* `Alert.step` — as many receives are awake as values are queued, or all of them are.
* `run_rendezvous` — what follows for every run.
-/

namespace EventLoop
namespace Exchange

variable {α : Type} {capacity : Capacity} {log : List (Answer α)} {s s' : Exchange α}
  {a : Act α} {ans : Answer α} {awake : List Bool}

/-! ### Answers to receives -/

namespace Answer

/-- What a receive came back with, if one did. -/
def reply? : Answer α → Option (Except Failure α)
  | .received _ r => some r
  | _ => none

end Answer

/-- What receives have come back with, in order. -/
def replies (log : List (Answer α)) : List (Except Failure α) := log.filterMap Answer.reply?

theorem run_cons (s : Exchange α) (a : Act α) (acts : List (Act α)) :
    s.run (a :: acts) = ((s.act a).1 :: ((s.act a).2.run acts).1, ((s.act a).2.run acts).2) := rfl

/-! ### Sleep -/

/-- The places of those who sleep. -/
def sleepers (awake : List Bool) : List Nat :=
  (List.range awake.length).filter fun n => awake[n]? == some false

/-- One of those who sleep is woken; it does not matter which. -/
def rouse (pick : Nat) (awake : List Bool) : List Bool :=
  match (sleepers awake)[pick % (sleepers awake).length]? with
  | some n => awake.set n true
  | none => awake

/-- Who of the receives that wait is awake after a step with its answer, in their order.  A value
that is accepted wakes one, and `pick` says which. -/
def stir (s : Exchange α) (pick : Nat) (awake : List Bool) (a : Act α) (ans : Answer α) :
    List Bool :=
  match a, ans with
  | .send _ _, .sent _ (.ok ()) => rouse pick awake
  | .receive _, .silence => if s.receiver then awake ++ [false] else awake
  | .wake n, .silence => awake.set n false
  | .wake n, .received _ _ => awake.eraseIdx n
  | .timeout n, .received _ _ => awake.eraseIdx n
  | _, _ => awake

/-- Who of the receives that wait is awake after a run. -/
def vigil (s : Exchange α) (awake : List Bool) : List (Act α × Nat) → List Bool
  | [] => awake
  | (a, pick) :: acts => (s.act a).2.vigil (s.stir pick awake a (s.act a).1) acts

theorem rouse_cases (pick : Nat) (awake : List Bool) :
    (false ∉ awake ∧ rouse pick awake = awake) ∨
      ∃ n, awake[n]? = some false ∧ rouse pick awake = awake.set n true := by
  have hmem : ∀ n, n ∈ sleepers awake ↔ awake[n]? = some false := by
    intro n
    simp only [sleepers, List.mem_filter, List.mem_range, beq_iff_eq, and_iff_right_iff_imp]
    intro h
    exact (List.getElem?_eq_some_iff.mp h).1
  unfold rouse
  split
  next n hn => exact Or.inr ⟨n, (hmem n).mp (List.mem_of_getElem? hn), rfl⟩
  next hnone =>
    refine Or.inl ⟨?_, rfl⟩
    intro hsleep
    obtain ⟨n, hn⟩ := List.mem_iff_getElem?.mp hsleep
    have hpos : 0 < (sleepers awake).length := List.length_pos_of_mem ((hmem n).mpr hn)
    have hlt := Nat.mod_lt pick hpos
    rw [List.getElem?_eq_getElem hlt] at hnone
    cases hnone

/-! ### One step -/

/-- What a step does to the queue and to the receives that wait. -/
inductive Effect (s : Exchange α) : Act α → Answer α → Exchange α → Prop
  /-- A value is queued. -/
  | accepted {p v h} (hp : p ∈ s.handles) (hlive : s.channel.hasReceiver = true)
      (hroom : s.channel.isFull = false) :
      Effect s (.send p v) (.sent v (.ok ()))
        { s with channel := { s.channel with queue := s.channel.queue ++ [v] }, host := h }
  /-- A receive comes back at once. -/
  | answered {w r c h k} (hlive : s.receiver = true)
      (ht : Channel.Takes { s.channel with parked := k } r c) :
      Effect s (.receive w) (.received w r) { s with channel := c, host := h }
  /-- A receive starts to wait. -/
  | parked {w} (hlive : s.receiver = true) (hcan : s.channel.canResume = false) :
      Effect s (.receive w) .silence
        { s with channel := s.channel.park, calls := s.calls ++ [w] }
  /-- A receive that waits looks again and comes back. -/
  | woken {n w r c h} (hn : s.calls[n]? = some w) (hcan : s.channel.canResume = true)
      (ht : Channel.Takes { s.channel with parked := s.channel.parked - 1 } r c) :
      Effect s (.wake n) (.received w r)
        { s with channel := c, host := h, calls := s.calls.eraseIdx n }
  /-- The time of a receive that waits is over. -/
  | expired {n r c h} (hn : s.calls[n]? = some .limited)
      (ht : Channel.Takes { s.channel with parked := s.channel.parked - 1 } r c) :
      Effect s (.timeout n) (.received .limited r)
        { s with channel := c, host := h, calls := s.calls.eraseIdx n }
  /-- A receive that waits looks again and goes on waiting. -/
  | slept {n} (hcan : ∀ w, s.calls[n]? = some w → s.channel.canResume = false) :
      Effect s (.wake n) .silence s
  /-- The receiver goes. -/
  | closed :
      Effect s .close .silence { s with channel := s.channel.abandon, receiver := false }
  /-- Nothing happens to them. -/
  | still {a ans c h handles} (hans : ans.reply? = none) (hq : c.queue = s.channel.queue)
      (hparked : c.parked = s.channel.parked)
      (hstir : ∀ pick awake, s.stir pick awake a ans = awake) :
      Effect s a ans { s with channel := c, host := h, handles := handles }

/-- **What a step can do.** -/
theorem effect_act (s : Exchange α) (a : Act α) : Effect s a (s.act a).1 (s.act a).2 := by
  cases a with
  | issue p =>
    simp only [act]
    split
    next hp => exact .still rfl rfl rfl fun _ _ => rfl
    next => exact .still rfl rfl rfl fun _ _ => rfl
  | copy p q =>
    simp only [act]
    split
    next hp => exact .still rfl rfl rfl fun _ _ => rfl
    next => exact .still rfl rfl rfl fun _ _ => rfl
  | swap p q => exact .still rfl rfl rfl fun _ _ => rfl
  | drop p =>
    simp only [act]
    split
    next hp => exact .still rfl rfl rfl fun _ _ => rfl
    next => exact .still rfl rfl rfl fun _ _ => rfl
  | send p v =>
    by_cases hp : p ∈ s.handles
    · have hact : s.act (.send p v) = s.send v := by simp [act, hp]
      rw [hact]
      unfold send
      split
      next c h hsend =>
        obtain ⟨hlive, hroom, rfl⟩ := Channel.send_ok hsend
        exact .accepted hp hlive hroom
      next e hsend =>
        exact .still rfl rfl rfl fun _ _ => rfl
    · have hact : s.act (.send p v) = (.silence, s) := by simp [act, hp]
      rw [hact]
      exact .still rfl rfl rfl fun _ _ => rfl
  | receive w =>
    cases hlive : s.receiver with
    | false =>
      have hact : s.act (.receive w) = (.silence, s) := by simp [act, hlive]
      rw [hact]
      exact .still rfl rfl rfl fun _ _ => by simp [stir, hlive]
    | true =>
      by_cases hw : w = .hasty
      · have hact : s.act (.receive w) = s.poll := by simp [act, hlive, hw]
        rw [hact, hw]
        unfold poll
        split
        next v c h hr =>
          exact .answered hlive (k := s.channel.parked) (Channel.takes_of_receive_ok hr)
        next e hr =>
          exact .answered hlive (k := s.channel.parked) (Channel.takes_of_receive_error hr)
      · have hact : s.act (.receive w) = s.await w := by simp [act, hlive, hw]
        rw [hact]
        unfold await
        dsimp only
        split
        next hcan => exact .answered hlive (s.channel.park.takes_resume s.host)
        next hcan => exact .parked hlive ((Bool.not_eq_true _).mp hcan)
  | wake n =>
    simp only [act]
    split
    next w hn =>
      split
      next hcan => exact .woken hn hcan (s.channel.takes_resume s.host)
      next hcan => exact .slept fun _ _ => by simpa using hcan
    next hn => exact .slept fun w hw => by simp [hn] at hw
  | timeout n =>
    by_cases hn : s.calls[n]? = some .limited
    · have hact : s.act (.timeout n) = s.finish .limited (s.calls.eraseIdx n) := by simp [act, hn]
      rw [hact]
      exact .expired hn (s.channel.takes_resume s.host)
    · have hact : s.act (.timeout n) = (.silence, s) := by simp [act, hn]
      rw [hact]
      exact .still rfl rfl rfl fun _ _ => rfl
  | close => exact .closed
  | elsewhere h => exact .still rfl rfl rfl fun _ _ => rfl

/-! ### Values that are promised -/

theorem isFull_zero {c : Channel α} (hc : c.capacity = .bounded 0) :
    c.isFull = decide (c.parked ≤ c.queue.length) := by
  simp [Channel.isFull, hc]

theorem queue_eq_nil_of_canResume {c : Channel α} (hc : c.canResume = false) : c.queue = [] := by
  by_contra hne
  have hcan := Channel.canResume_iff.mpr (Or.inl hne)
  rw [hc] at hcan
  cases hcan

/-- Whoever takes leaves the rest of the queue. -/
theorem tail_of_takes {c c' : Channel α} {r : Except Failure α} (ht : c.Takes r c') :
    c'.queue = c.queue.tail := by
  cases ht with
  | value hq => rw [hq, List.tail_cons]
  | nothing hq => rw [hq, List.tail_nil]

/-- **No step queues more values than receives wait**, if the channel can hold none. -/
theorem Effect.promised (he : Effect s a ans s') (hcap : s.channel.capacity = .bounded 0)
    (hparked : s.channel.parked = s.calls.length)
    (hle : s.channel.queue.length ≤ s.calls.length) :
    s'.channel.queue.length ≤ s'.calls.length := by
  cases he with
  | accepted hp hlive hroom =>
    -- one of those who wait was not promised a value
    rw [isFull_zero hcap, hparked, decide_eq_false_iff_not] at hroom
    simp only [List.length_append, List.length_singleton]
    omega
  | answered hlive ht =>
    have htail := tail_of_takes ht
    simp only [htail, List.length_tail]
    omega
  | parked hlive hcan =>
    simp only [Channel.park, List.length_append, List.length_singleton]
    omega
  | woken hn hcan ht =>
    -- the call that goes takes one value with it, if there is one
    have htail := tail_of_takes ht
    obtain ⟨hlt, -⟩ := List.getElem?_eq_some_iff.mp hn
    simp only [htail, List.length_tail, List.length_eraseIdx_of_lt hlt]
    omega
  | expired hn ht =>
    have htail := tail_of_takes ht
    obtain ⟨hlt, -⟩ := List.getElem?_eq_some_iff.mp hn
    simp only [htail, List.length_tail, List.length_eraseIdx_of_lt hlt]
    omega
  | slept hcan => exact hle
  | closed => exact Nat.zero_le _
  | still hans hq hparked' hstir =>
    simp only [hq]
    exact hle

theorem promised_run (acts : List (Act α)) : ∀ {log : List (Answer α)} {s : Exchange α},
    s.Kept (.bounded 0) log → s.channel.queue.length ≤ s.calls.length →
    (s.run acts).2.channel.queue.length ≤ (s.run acts).2.calls.length := by
  induction acts with
  | nil =>
    intro log s hs hle
    exact hle
  | cons a acts ih =>
    intro log s hs hle
    exact ih (hs.act a) ((effect_act s a).promised hs.values.capacity_eq hs.parked_eq hle)

/-! ### Values that are received -/

/-- A receiver that is gone does not come back. -/
theorem Effect.receiver (he : Effect s a ans s') (h : s'.receiver = true) :
    s.receiver = true := by
  cases he with
  | closed => cases h
  | accepted => exact h
  | answered => exact h
  | parked => exact h
  | woken => exact h
  | expired => exact h
  | slept => exact h
  | still => exact h

theorem receiver_run (acts : List (Act α)) : ∀ {s : Exchange α},
    (s.run acts).2.receiver = true → s.receiver = true := by
  induction acts with
  | nil =>
    intro s h
    exact h
  | cons a acts ih =>
    intro s h
    exact (effect_act s a).receiver (ih h)

/-- What one receive comes back with, and what is queued then. -/
theorem prefix_of_takes {c c' : Channel α} {r : Except Failure α} (ht : c.Takes r c')
    {rs : List (Except Failure α)} (h : c'.queue.map .ok <+: rs) : c.queue.map .ok <+: r :: rs := by
  cases ht with
  | value hq =>
    rw [hq, List.map_cons]
    exact List.prefix_cons_inj _ |>.mpr h
  | nothing hq =>
    rw [hq]
    exact List.nil_prefix

/-- **The values queued are what the next receives come back with**, in order; those that are left
over stay queued. -/
theorem replies_run (acts : List (Act α)) : ∀ {s : Exchange α},
    (s.run acts).2.receiver = true →
    s.channel.queue.map .ok <+:
      replies (s.run acts).1 ++ (s.run acts).2.channel.queue.map .ok := by
  induction acts with
  | nil =>
    intro s h
    exact List.prefix_refl _
  | cons a acts ih =>
    intro s h
    have hlive := receiver_run acts h
    have hrest := ih h
    have he := effect_act s a
    rw [run_cons]
    revert he hlive hrest
    generalize (s.act a).1 = ans
    generalize (s.act a).2 = t
    intro hlive hrest he
    cases he with
    | accepted hp hrec hroom =>
      refine List.IsPrefix.trans ?_ hrest
      rw [List.map_append]
      exact List.prefix_append _ _
    | answered hrec ht => exact prefix_of_takes ht hrest
    | parked hrec hcan => exact hrest
    | woken hn hcan ht => exact prefix_of_takes ht hrest
    | expired hn ht => exact prefix_of_takes ht hrest
    | slept hcan => exact hrest
    | closed => cases hlive
    | still hans hq hparked hstir =>
      rw [replies, List.filterMap_cons_none hans]
      simp only [hq] at hrest
      exact hrest

/-! ### Receives that are awake -/

/-- As many receives are awake as values are queued, or all of them are. -/
structure Alert (s : Exchange α) (awake : List Bool) : Prop where
  paired : awake.length = s.calls.length
  awake_of_asleep : false ∈ awake → s.channel.queue.length ≤ awake.count true

theorem length_rouse (pick : Nat) (awake : List Bool) :
    (rouse pick awake).length = awake.length := by
  obtain ⟨-, heq⟩ | ⟨n, -, heq⟩ := rouse_cases pick awake
  · rw [heq]
  · rw [heq, List.length_set]

/-- A sleeper that is woken is one more of those who are awake. -/
theorem count_rouse {pick : Nat} (h : false ∈ rouse pick awake) :
    (rouse pick awake).count true = awake.count true + 1 := by
  obtain ⟨hnone, heq⟩ | ⟨n, hn, heq⟩ := rouse_cases pick awake
  · rw [heq] at h
    exact absurd h hnone
  · obtain ⟨hlt, hget⟩ := List.getElem?_eq_some_iff.mp hn
    rw [heq, List.count_set hlt, hget]
    simp

/-- Who stops waiting is at most one of those who are awake. -/
theorem count_eraseIdx_le (awake : List Bool) (n : Nat) :
    awake.count true ≤ (awake.eraseIdx n).count true + 1 := by
  by_cases hn : n < awake.length
  · have hperm := (List.getElem_cons_eraseIdx_perm hn).count_eq true
    rw [← hperm, List.count_cons]
    split <;> omega
  · rw [List.eraseIdx_of_length_le (Nat.le_of_not_lt hn)]
    omega

namespace Alert

/-- A call stops waiting and takes a value, if there is one. -/
theorem take (hw : Alert s awake) {n : Nat} {w : Patience} {k : Nat} {r : Except Failure α}
    {c : Channel α} {h : Host} (hn : s.calls[n]? = some w)
    (ht : Channel.Takes { s.channel with parked := k } r c) :
    Alert { s with channel := c, host := h, calls := s.calls.eraseIdx n } (awake.eraseIdx n) := by
  obtain ⟨hlt, -⟩ := List.getElem?_eq_some_iff.mp hn
  refine ⟨?_, ?_⟩
  · rw [List.length_eraseIdx_of_lt (hw.paired ▸ hlt), List.length_eraseIdx_of_lt hlt, hw.paired]
  · intro hsleep
    have hle := hw.awake_of_asleep (List.mem_of_mem_eraseIdx hsleep)
    have hcount := count_eraseIdx_le awake n
    have htail := tail_of_takes ht
    simp only [htail, List.length_tail]
    omega

/-- **Every step keeps as many receives awake as values are queued**, or all of them. -/
theorem step (hw : Alert s awake) (pick : Nat) (he : Effect s a ans s') :
    Alert s' (s.stir pick awake a ans) := by
  cases he with
  | accepted hp hlive hroom =>
    refine ⟨(length_rouse pick awake).trans hw.paired, ?_⟩
    intro hsleep
    -- whoever sleeps now slept before
    have hbefore : false ∈ awake := by
      obtain ⟨-, heq⟩ | ⟨n, hn, -⟩ := rouse_cases pick awake
      · exact heq ▸ hsleep
      · exact List.mem_of_getElem? hn
    have hle := hw.awake_of_asleep hbefore
    simp only [stir] at hsleep ⊢
    rw [count_rouse hsleep, List.length_append, List.length_singleton]
    omega
  | answered hlive ht =>
    refine ⟨hw.paired, ?_⟩
    intro hsleep
    have hle := hw.awake_of_asleep hsleep
    have htail := tail_of_takes ht
    simp only [stir, htail, List.length_tail]
    omega
  | parked hlive hcan =>
    simp only [stir, if_pos hlive]
    refine ⟨?_, ?_⟩
    · simp [hw.paired]
    · intro hsleep
      have hq : s.channel.park.queue = [] := queue_eq_nil_of_canResume hcan
      rw [hq]
      exact Nat.zero_le _
  | woken hn hcan ht => exact hw.take hn ht
  | expired hn ht => exact hw.take hn ht
  | @slept n hcan =>
    refine ⟨(List.length_set).trans hw.paired, ?_⟩
    intro hsleep
    cases hn : s.calls[n]? with
    | none =>
      -- nobody waits there, so nobody goes to sleep
      have hout : awake.length ≤ n := hw.paired ▸ List.getElem?_eq_none_iff.mp hn
      simp only [stir, List.set_eq_of_length_le hout] at hsleep ⊢
      exact hw.awake_of_asleep hsleep
    | some w =>
      rw [queue_eq_nil_of_canResume (hcan w hn)]
      exact Nat.zero_le _
  | closed => exact ⟨hw.paired, fun _ => Nat.zero_le _⟩
  | still hnone hq hparked hsame =>
    rw [hsame]
    exact ⟨hw.paired, fun hsleep => hq ▸ hw.awake_of_asleep hsleep⟩

theorem run (acts : List (Act α × Nat)) : ∀ {s : Exchange α} {awake : List Bool},
    Alert s awake → Alert (s.run (acts.map Prod.fst)).2 (s.vigil awake acts) := by
  induction acts with
  | nil =>
    intro s awake hw
    exact hw
  | cons act acts ih =>
    intro s awake hw
    exact ih (hw.step act.2 (effect_act s act.1))

/-- While no more values are queued than receives wait, one is awake for each of them. -/
theorem queue_le (hw : Alert s awake) (hle : s.channel.queue.length ≤ s.calls.length) :
    s.channel.queue.length ≤ awake.count true := by
  by_cases hsleep : false ∈ awake
  · exact hw.awake_of_asleep hsleep
  · have hall : ∀ b ∈ awake, true = b := by
      intro b hb
      cases b with
      | true => rfl
      | false => exact absurd hb hsleep
    rw [List.count_eq_length.mpr hall, hw.paired]
    exact hle

end Alert

/-! ### What the users may rely on -/

/-- What senders and receiver of a channel that can hold no values may rely on, after the answers
in the log and with some of the receives that wait awake. -/
structure Rendezvous (log : List (Answer α)) (s : Exchange α) (awake : List Bool) : Prop where
  /-- No more values are queued than receives wait. -/
  promised : s.channel.queue.length ≤ s.channel.parked
  /-- The channel counts those who wait. -/
  counted : s.channel.parked = s.calls.length
  /-- A receive that may wait does so if nothing is queued, unless all senders are gone. -/
  parks : ∀ w ≠ .hasty, s.receiver = true → s.channel.queue = [] →
    ¬ (.issued ∈ log ∧ s.handles = ∅) →
    (s.act (.receive w)).1 = .silence ∧ (s.act (.receive w)).2.calls = s.calls ++ [w]
  /-- A value is accepted only while a receive waits that none is promised to. -/
  accepts : ∀ p v, (s.act (.send p v)).1 = .sent v (.ok ()) ↔
    p ∈ s.handles ∧ s.receiver = true ∧ s.channel.queue.length < s.calls.length
  /-- A value that is accepted comes back from a receive, after those that were queued before it;
  until then it stays queued.  Nothing but the end of the receiver takes it away. -/
  handed : ∀ p v, (s.act (.send p v)).1 = .sent v (.ok ()) → ∀ acts,
    ((s.act (.send p v)).2.run acts).2.receiver = true →
    (replies ((s.act (.send p v)).2.run acts).1 ++
      ((s.act (.send p v)).2.run acts).2.channel.queue.map .ok)[s.channel.queue.length]?
        = some (.ok v)
  /-- While a value is queued, every receive that waits comes back with the oldest one as soon as
  it looks again, and also when its time is over. -/
  taken : ∀ v rest, s.channel.queue = v :: rest → ∀ n w, s.calls[n]? = some w →
    (s.act (.wake n)).1 = .received w (.ok v) ∧
    (w = .limited → (s.act (.timeout n)).1 = .received .limited (.ok v))
  /-- For each value queued, a receive that waits is awake. -/
  awake : awake.length = s.calls.length ∧ s.channel.queue.length ≤ awake.count true
  /-- Once nobody waits, nothing is queued: all that was accepted was received, unless the
  receiver is gone. -/
  settled : s.calls = [] → s.channel.queue = [] ∧ (s.receiver = true → accepted log = received log)

theorem Kept.parks (hs : s.Kept capacity log) {w : Patience} (hw : w ≠ .hasty)
    (hlive : s.receiver = true) (hq : s.channel.queue = [])
    (hopen : ¬ (.issued ∈ log ∧ s.handles = ∅)) :
    (s.act (.receive w)).1 = .silence ∧ (s.act (.receive w)).2.calls = s.calls ++ [w] := by
  have hcan : s.channel.park.canResume = false := by
    rw [Bool.eq_false_iff, Ne, Channel.canResume_iff]
    rintro (hne | hclosed)
    · exact hne hq
    · exact hopen (hs.users.closed_iff.mp hclosed)
  have hact : s.act (.receive w) = s.await w := by simp [Exchange.act, hlive, hw]
  have hwait : s.await w
      = (.silence, { s with channel := s.channel.park, calls := s.calls ++ [w] }) := by
    unfold Exchange.await
    dsimp only
    rw [hcan]
    rfl
  rw [hact, hwait]
  exact ⟨rfl, rfl⟩

theorem Kept.accepts (hs : s.Kept (.bounded 0) log) (p : Nat) (v : α) :
    (s.act (.send p v)).1 = .sent v (.ok ()) ↔
      p ∈ s.handles ∧ s.receiver = true ∧ s.channel.queue.length < s.calls.length := by
  have hfull := isFull_zero hs.values.capacity_eq
  rw [hs.parked_eq] at hfull
  by_cases hp : p ∈ s.handles
  · have hact : s.act (.send p v) = s.send v := by simp [Exchange.act, hp]
    rw [hact, ← hs.values.hasReceiver_eq]
    unfold Exchange.send
    split
    next c h hsend =>
      obtain ⟨hlive, hroom, -⟩ := Channel.send_ok hsend
      rw [hfull, decide_eq_false_iff_not, Nat.not_le] at hroom
      exact iff_of_true rfl ⟨hp, hlive, hroom⟩
    next e hsend =>
      refine iff_of_false (by simp) ?_
      rintro ⟨-, hlive, hroom⟩
      obtain ⟨hdead, -⟩ | ⟨-, hfull', -⟩ := Channel.send_error hsend
      · cases hlive.symm.trans hdead
      · rw [hfull, decide_eq_true_eq] at hfull'
        omega
  · refine iff_of_false ?_ fun h => hp h.1
    simp [Exchange.act, hp]

/-- A value that is accepted is the last one queued. -/
theorem queue_of_sent {p : Nat} {v : α} (h : (s.act (.send p v)).1 = .sent v (.ok ())) :
    (s.act (.send p v)).2.channel.queue = s.channel.queue ++ [v] := by
  by_cases hp : p ∈ s.handles
  · have hact : s.act (.send p v) = s.send v := by simp [Exchange.act, hp]
    rw [hact] at h ⊢
    unfold Exchange.send at h ⊢
    split at h
    next c h' hsend =>
      obtain ⟨-, -, rfl⟩ := Channel.send_ok hsend
      rfl
    next e hsend => simp at h
  · simp [Exchange.act, hp] at h

theorem handed_run {p : Nat} {v : α} (h : (s.act (.send p v)).1 = .sent v (.ok ()))
    (acts : List (Act α)) (hlive : ((s.act (.send p v)).2.run acts).2.receiver = true) :
    (replies ((s.act (.send p v)).2.run acts).1 ++
      ((s.act (.send p v)).2.run acts).2.channel.queue.map .ok)[s.channel.queue.length]?
        = some (.ok v) := by
  have hprefix := replies_run acts hlive
  rw [queue_of_sent h, List.map_append, List.map_singleton] at hprefix
  obtain ⟨rest, hrest⟩ := hprefix
  rw [← hrest]
  simp

/-- A receive that stops takes the oldest value. -/
theorem finish_of_cons {v : α} {rest : List α} (hq : s.channel.queue = v :: rest) (w : Patience)
    (others : List Patience) : (s.finish w others).1 = .received w (.ok v) := by
  have ht := s.channel.takes_resume s.host
  unfold finish
  generalize s.channel.resume s.host = r at ht
  obtain ⟨r, c, h⟩ := r
  cases ht with
  | nothing hq' => cases hq.symm.trans hq'
  | value hq' =>
    obtain ⟨rfl, -⟩ := List.cons.inj (hq.symm.trans hq')
    rfl

theorem taken_of_cons {v : α} {rest : List α} (hq : s.channel.queue = v :: rest) {n : Nat}
    {w : Patience} (hn : s.calls[n]? = some w) :
    (s.act (.wake n)).1 = .received w (.ok v) ∧
      (w = .limited → (s.act (.timeout n)).1 = .received .limited (.ok v)) := by
  refine ⟨?_, ?_⟩
  · have hcan : s.channel.canResume = true := Channel.canResume_iff.mpr (Or.inl (by simp [hq]))
    simp only [Exchange.act, hn, hcan, if_true]
    exact finish_of_cons hq w _
  · intro hw
    have hlimited : s.calls[n]? = some .limited := hw ▸ hn
    simp only [Exchange.act, if_pos hlimited]
    exact finish_of_cons hq .limited _

/-- **What senders and receiver may rely on holds after every run** of a channel that can hold no
values, in whatever order senders, receiver and the receives that wait take their steps, and
whichever sleeper is woken for a value. -/
theorem run_rendezvous (h : Host) (acts : List (Act α × Nat)) :
    Rendezvous ((start (.bounded 0) h : Exchange α).run (acts.map Prod.fst)).1
      ((start (.bounded 0) h : Exchange α).run (acts.map Prod.fst)).2
      ((start (.bounded 0) h : Exchange α).vigil [] acts) := by
  have hkept := Kept.run (acts.map Prod.fst) (.start (α := α) (.bounded 0) h)
  have hle := promised_run (acts.map Prod.fst) (.start (α := α) (.bounded 0) h) (Nat.zero_le 0)
  have halert : Alert (start (.bounded 0) h : Exchange α) [] := ⟨rfl, nofun⟩
  have hawake := halert.run acts
  rw [List.nil_append] at hkept
  refine
    { promised := hkept.parked_eq.symm ▸ hle
      counted := hkept.parked_eq
      parks := fun w hw => hkept.parks hw
      accepts := hkept.accepts
      handed := fun p v => handed_run
      taken := fun v rest hq n w => taken_of_cons hq
      awake := ⟨hawake.paired, hawake.queue_le hle⟩
      settled := ?_ }
  intro hcalls
  rw [hcalls, List.length_nil, Nat.le_zero, List.length_eq_zero_iff] at hle
  refine ⟨hle, fun hlive => ?_⟩
  have hall := hkept.values.conserved hlive
  rw [hle, List.append_nil] at hall
  exact hall

/-- Two receives wait, and a sender is there. -/
def expectant : List (Act Nat × Nat) :=
  [(.issue 3, 0), (.receive .limited, 0), (.receive .endless, 0)]

/-- A value is accepted and wakes the second receive, but the time of the first is over before that
one looks: the first has the value, and the second goes back to sleep. -/
theorem run_rendezvous_expectant :
    let s : Exchange Nat := ((start (.bounded 0) (Host.initial .silent)).run
      (expectant.map Prod.fst)).2
    let acts : List (Act Nat) := [.timeout 0, .wake 0]
    s.calls = [.limited, .endless] ∧ (s.act (.send 3 8)).1 = .sent 8 (.ok ()) ∧
      (replies ((s.act (.send 3 8)).2.run acts).1 ++
        ((s.act (.send 3 8)).2.run acts).2.channel.queue.map .ok)[0]? = some (.ok 8) ∧
      replies ((s.act (.send 3 8)).2.run acts).1 = [.ok 8] ∧
      s.vigil [false, false] [(.send 3 8, 1), (.timeout 0, 0), (.wake 0, 0)] = [false] := by
  intro s acts
  have hrelies := run_rendezvous (α := Nat) (Host.initial .silent) expectant
  have hcalls : s.calls = [.limited, .endless] := rfl
  have hsent : (s.act (.send 3 8)).1 = .sent 8 (.ok ()) :=
    (hrelies.accepts 3 8).mpr ⟨by decide, rfl, by decide⟩
  exact ⟨hcalls, hsent, hrelies.handed 3 8 hsent acts rfl, rfl, rfl⟩

end Exchange
end EventLoop

import EventLoop.Host.Sockets
import EventLoop.Proofs.Evented.Rewatching
import Mathlib.Data.List.Basic

/-!
# The two ends of a stream

A stream has two ends, and what one of them sends arrives at the other.  For one end,
the near one, this file says what each call of the host does to it: which bytes arrive
there, which are taken out, and whether anything can still arrive.

## Main definitions

* `StreamEnd.unread` — the bytes that have arrived at an end and were not read.
* `Host.Paired` — every end has a peer, and is the peer of its peer.
* `Host.Faces h fd near` — behind the descriptor `fd` is the other end.
* `Host.Leaves h fd near` — with the descriptor `fd` the other end goes.
* `Host.Passes h fd near said heard ended h'` — what has become of the near end.

## Main results

* `Host.send_ok`, `Host.shutSend_ok` — what the calls of the sending side have done.
* `Passes.send`, `Passes.fill`, `Passes.shutSend`, `Passes.close` — what the other side does.
* `Passes.send_near`, `Passes.shutSend_near`, `Passes.receive_far` — what leaves the near end alone.
* `Host.receive_spec` — **what is received**: the next bytes, the end of the stream, or a failure.
-/

namespace EventLoop

/-! ### Ends -/

namespace StreamEnd

/-- The bytes that have arrived and were not read. -/
def unread (e : StreamEnd) : List UInt8 := e.inbox ++ List.replicate e.padding 0

theorem hasData_iff {e : StreamEnd} : e.hasData = true ↔ e.unread ≠ [] := by
  unfold hasData unread
  cases e.inbox with
  | nil => cases e.padding <;> simp
  | cons b rest => simp

theorem unread_of_isFull_eq_false {e : StreamEnd} (hfull : e.isFull = false) :
    e.unread = e.inbox := by
  have hpadding : e.padding = 0 := by simpa [isFull] using hfull
  rw [unread, hpadding, List.replicate_zero, List.append_nil]

/-- What has become of an end: the bytes `said` have arrived, the bytes `heard` were taken out,
and if `ended` nothing more can arrive.  This may have been abrupt; nothing else goes wrong. -/
structure Passes (e : StreamEnd) (said heard : List UInt8) (ended : Bool) (e' : StreamEnd) :
    Prop where
  unread_eq : e.unread ++ said = heard ++ e'.unread
  receiveShut_eq : e'.receiveShut = (e.receiveShut || ended)
  fault : ∀ errno, e'.fault = some errno →
    e.fault = some errno ∨ ended = true ∧ errno = .connectionReset

namespace Passes

variable {e e' e'' : StreamEnd}

theorem refl (e : StreamEnd) : e.Passes [] [] false e :=
  ⟨List.append_nil _, (Bool.or_false _).symm, fun _ => .inl⟩

theorem trans {said heard said' heard' : List UInt8} {ended ended' : Bool}
    (h : e.Passes said heard ended e') (h' : e'.Passes said' heard' ended' e'') :
    e.Passes (said ++ said') (heard ++ heard') (ended || ended') e'' where
  unread_eq := by
    rw [← List.append_assoc, h.unread_eq, List.append_assoc, h'.unread_eq, List.append_assoc]
  receiveShut_eq := by rw [h'.receiveShut_eq, h.receiveShut_eq, Bool.or_assoc]
  fault errno hfault := by
    rw [Bool.or_eq_true]
    rcases h'.fault errno hfault with he | hover
    · exact (h.fault errno he).imp_right (.imp_left .inl)
    · exact .inr (hover.imp_left .inr)

end Passes

end StreamEnd

namespace Host

variable {h h' h'' : Host} {fd : Option Nat} {n near far : Nat} {e : StreamEnd}
  {f : StreamEnd → StreamEnd}

/-! ### Peers -/

/-- The number of the other end. -/
def peer? (h : Host) (n : Nat) : Option Nat := (h.end? n).map (·.peer)

theorem end?_congr (hends : h'.ends = h.ends) (n : Nat) : h'.end? n = h.end? n := by
  unfold end?
  rw [hends]

theorem peer?_of_end? (he : h.end? n = some e) : h.peer? n = some e.peer := by
  rw [peer?, he, Option.map_some]

/-- Every end has a peer, and is the peer of its peer. -/
def Paired (h : Host) : Prop := ∀ n m, h.peer? n = some m → m ≠ n ∧ h.peer? m = some n

/-- Behind the descriptor is the other end. -/
def Faces (h : Host) (fd : Option Nat) (near : Nat) : Prop :=
  ∃ far, h.streamOf fd = .ok far ∧ h.peer? far = some near

/-- With the descriptor the other end goes: it is behind it, or waits to be accepted there. -/
def Leaves (h : Host) (fd near : Nat) : Prop :=
  ∃ far, h.peer? far = some near ∧ (h.object? fd = some (.stream far) ∨
    ∃ bound backlog, h.object? fd = some (.listener bound backlog) ∧ far ∈ backlog ∧ near ∉ backlog)

/-- How many zero bytes are taken until no more are, when a stream is filled up. -/
def room (h : Host) (fd : Option Nat) : Nat :=
  match h.streamOf fd with
  | .error _ => 0
  | .ok number =>
    match h.end? number with
    | none => 0
    | some e => if e.sendShut || (h.end? e.peer).elim false (·.isFull) then 0 else fillSize

theorem end?_modifyEnd (h : Host) (m : Nat) (f : StreamEnd → StreamEnd) (n : Nat) :
    (h.modifyEnd m f).end? n = if m = n then (h.end? n).map f else h.end? n := by
  unfold modifyEnd end?
  exact Array.getElem?_modify

theorem peer?_modifyEnd (hf : ∀ e, (f e).peer = e.peer) (h : Host) (m n : Nat) :
    (h.modifyEnd m f).peer? n = h.peer? n := by
  rw [peer?, end?_modifyEnd]
  split
  · rw [Option.map_map]
    exact Option.map_congr fun e _ => hf e
  · rfl

theorem Paired.of_peer? (hp : h.Paired) (heq : ∀ n, h'.peer? n = h.peer? n) : h'.Paired := by
  intro n m hm
  rw [heq] at hm
  rw [heq]
  exact hp n m hm

theorem paired_initial (journal : Journal) : (initial journal).Paired := by
  intro n m hm
  have hnone : (initial journal).end? n = none := Array.getElem?_empty
  rw [peer?, hnone] at hm
  cases hm

/-- Two ends that are connected with each other are paired, and nobody else is affected. -/
theorem Paired.connectEnds (hp : h.Paired) (name name' : Binding) :
    (h.connectEnds name name').2.Paired := by
  have hpeer : ∀ n, (h.connectEnds name name').2.peer? n
      = if n = h.ends.size + 1 then some h.ends.size
        else if n = h.ends.size then some (h.ends.size + 1) else h.peer? n := by
    intro n
    unfold peer? end? Host.connectEnds
    dsimp only
    rw [Array.getElem?_push, Array.size_push]
    split
    · rfl
    · rw [Array.getElem?_push]
      split <;> rfl
  -- the numbers of the two new ends were not in use
  have hold : ∀ n m, h.peer? n = some m → n < h.ends.size ∧ m < h.ends.size := by
    intro n m hm
    have hlt : ∀ k j, h.peer? k = some j → k < h.ends.size := by
      intro k j hk
      by_contra hge
      have hnone : h.end? k = none := Array.getElem?_eq_none (by omega)
      rw [peer?, hnone] at hk
      cases hk
    exact ⟨hlt n m hm, hlt m n (hp n m hm).2⟩
  intro n m hm
  rw [hpeer] at hm
  rw [hpeer]
  split at hm
  next hn =>
    cases hm
    rw [if_neg (by omega), if_pos rfl, hn]
    exact ⟨by omega, rfl⟩
  next hn =>
    split at hm
    next hn' =>
      cases hm
      rw [if_pos rfl, hn']
      exact ⟨by omega, rfl⟩
    next hn' =>
      obtain ⟨hlt, hlt'⟩ := hold n m hm
      rw [if_neg (by omega), if_neg (by omega)]
      exact hp n m hm

/-! ### Streams behind descriptors -/

theorem streamOf_eq_ok_iff : h.streamOf fd = .ok n ↔ h.objectOf? fd = some (.stream n) := by
  unfold streamOf
  constructor
  · intro hs
    split at hs
    next m ho =>
      cases hs
      exact ho
    next => cases hs
    next => cases hs
  · intro ho
    rw [ho]

theorem streamOf_congr (ho : ∀ fd, h'.object? fd = h.object? fd) (fd : Option Nat) :
    h'.streamOf fd = h.streamOf fd := by
  have hobj : h'.objectOf? fd = h.objectOf? fd := by
    cases fd with
    | none => rfl
    | some fd => exact ho fd
  unfold streamOf
  rw [hobj]

/-- What is sent goes to the peer, unless it is nothing. -/
theorem send_ok {bytes : List UInt8} {k : Nat} (hs : h.send fd bytes = .ok (k, h'))
    (hstream : h.streamOf fd = .ok n) : ∃ e, h.end? n = some e ∧
      ((bytes = [] ∧ h' = h) ∨ ((h.end? e.peer).elim false (·.isFull) = false ∧
        h' = h.modifyEnd e.peer fun p => { p with inbox := p.inbox ++ bytes })) := by
  unfold send at hs
  rw [hstream] at hs
  dsimp only at hs
  cases he : h.end? n with
  | none =>
    rw [he] at hs
    cases hs
  | some e =>
    refine ⟨e, rfl, ?_⟩
    rw [he] at hs
    dsimp only at hs
    split at hs
    · cases hs
    · split at hs
      next hempty =>
        cases hs
        exact .inl ⟨List.isEmpty_iff.mp hempty, rfl⟩
      next =>
        split at hs
        next => cases hs
        next hroom =>
          cases hs
          exact .inr ⟨Bool.eq_false_iff.mpr hroom, rfl⟩

/-- An end that sends nothing more is told to its peer. -/
theorem shutSend_ok (hs : h.shutSend fd = .ok h') (hstream : h.streamOf fd = .ok n) :
    ∃ e, h.end? n = some e ∧
      h' = (h.modifyEnd n fun e => { e with sendShut := true }).modifyEnd e.peer fun p =>
        { p with receiveShut := true } := by
  unfold shutSend at hs
  rw [hstream] at hs
  dsimp only at hs
  cases he : h.end? n with
  | none =>
    rw [he] at hs
    cases hs
  | some e =>
    rw [he] at hs
    exact ⟨e, rfl, (Except.ok.inj hs).symm⟩

theorem ownName_of_end? (hn : h.streamOf fd = .ok n) (he : h.end? n = some e) :
    h.ownName fd = e.name.text := by
  unfold ownName
  rw [streamOf_eq_ok_iff.mp hn]
  dsimp only
  rw [he]

theorem peerName_of_end? {p : StreamEnd} (hn : h.streamOf fd = .ok n) (he : h.end? n = some e)
    (hp : h.end? e.peer = some p) : h.peerName fd = p.name.text := by
  unfold peerName farName
  rw [hn]
  dsimp only
  rw [he, Option.bind_some, hp]

/-! ### What becomes of the near end -/

/-- What has become of the near end, behind the descriptor `fd`: the bytes `said` have arrived
there, the bytes `heard` were taken out, and if `ended` nothing more can arrive. -/
structure Passes (h : Host) (fd : Option Nat) (near : Nat) (said heard : List UInt8) (ended : Bool)
    (h' : Host) : Prop where
  /-- Every end has the same peer as before. -/
  peer?_eq : ∀ n, h'.peer? n = h.peer? n
  /-- The near end is still behind its descriptor. -/
  stream : h.streamOf fd = .ok near → h'.streamOf fd = .ok near
  /-- What has become of it. -/
  near : ∀ e, h.end? near = some e →
    ∃ e', h'.end? near = some e' ∧ e.Passes said heard ended e'

namespace Passes

variable {said heard said' heard' : List UInt8} {ended ended' : Bool}

theorem refl (h : Host) (fd : Option Nat) (near : Nat) : h.Passes fd near [] [] false h :=
  ⟨fun _ => rfl, id, fun e he => ⟨e, he, .refl e⟩⟩

theorem trans (h₁ : h.Passes fd near said heard ended h')
    (h₂ : h'.Passes fd near said' heard' ended' h'') :
    h.Passes fd near (said ++ said') (heard ++ heard') (ended || ended') h'' where
  peer?_eq n := (h₂.peer?_eq n).trans (h₁.peer?_eq n)
  stream hs := h₂.stream (h₁.stream hs)
  near e he := by
    obtain ⟨e', he', hpass⟩ := h₁.near e he
    obtain ⟨e'', he'', hpass'⟩ := h₂.near e' he'
    exact ⟨e'', he'', hpass.trans hpass'⟩

theorem calm (h : Host) (fd : Option Nat) (near : Nat) : h.Passes fd near [] [] false h.calm :=
  ⟨fun _ => rfl, id, fun e he => ⟨e, he, .refl e⟩⟩

/-- What came before was none of its business. -/
theorem after (h₁ : h.Passes fd near [] [] false h')
    (h₂ : h'.Passes fd near said heard ended h'') : h.Passes fd near said heard ended h'' :=
  h₁.trans h₂

/-- Something happens to one end, of which the near one takes part as it says. -/
theorem modifyEnd (m : Nat) (hf : ∀ e, (f e).peer = e.peer)
    (hnear : ∀ e, h.end? near = some e →
      e.Passes said heard ended (if m = near then f e else e)) :
    h.Passes fd near said heard ended (h.modifyEnd m f) where
  peer?_eq := peer?_modifyEnd hf h m
  stream hs := (streamOf_congr (fun _ => rfl) fd).trans hs
  near e he := by
    refine ⟨_, ?_, hnear e he⟩
    rw [end?_modifyEnd, he]
    split <;> rfl

/-- What happens to another end is none of its business. -/
theorem modifyEnd_of_ne (hne : n ≠ near) (hf : ∀ e, (f e).peer = e.peer) :
    h.Passes fd near [] [] false (h.modifyEnd n f) := by
  refine .modifyEnd n hf fun e he => ?_
  rw [if_neg hne]
  exact .refl e

/-- Nor is what multiplexers watch. -/
theorem of_rewatches (hr : h.Rewatches h') : h.Passes fd near [] [] false h' := by
  have hend := end?_congr hr.ends_eq
  refine ⟨fun n => congrArg _ (hend n), fun hs => ?_, fun e he => ⟨e, (hend near).trans he, .refl e⟩⟩
  rw [streamOf_eq_ok_iff] at hs ⊢
  cases fd with
  | none => cases hs
  | some fd => exact hr.object?_eq hs fun _ h => nomatch h

/-! #### What the other side does -/

/-- **What the other side sends arrives.** -/
theorem send {fd' : Option Nat} {bytes : List UInt8} {k : Nat} (hface : h.Faces fd' near)
    (hs : h.send fd' bytes = .ok (k, h')) :
    h.Passes fd near bytes [] false h' := by
  obtain ⟨far, hstream, hpeer⟩ := hface
  obtain ⟨e, he, ⟨rfl, rfl⟩ | ⟨hroom, rfl⟩⟩ := send_ok hs hstream
  · exact .refl h' fd near
  · rw [peer?_of_end? he] at hpeer
    obtain rfl := Option.some.inj hpeer
    refine .modifyEnd e.peer (fun _ => rfl) fun p hp => ?_
    rw [if_pos rfl]
    have hfull : p.isFull = false := by
      rw [hp] at hroom
      exact hroom
    -- the bytes arrive behind those unread
    have hunread := StreamEnd.unread_of_isFull_eq_false hfull
    have hunread' : StreamEnd.unread { p with inbox := p.inbox ++ bytes } = p.inbox ++ bytes :=
      StreamEnd.unread_of_isFull_eq_false (e := { p with inbox := p.inbox ++ bytes }) hfull
    refine ⟨?_, (Bool.or_false _).symm, fun _ => .inl⟩
    rw [hunread, hunread', List.nil_append]

/-- So do the zero bytes that it fills the stream up with. -/
theorem fill {fd' : Option Nat} (hface : h.Faces fd' near) :
    h.Passes fd near (List.replicate (h.room fd') 0) [] false (h.fill fd') := by
  obtain ⟨far, hstream, hpeer⟩ := hface
  unfold room Host.fill
  rw [hstream]
  dsimp only
  cases he : h.end? far with
  | none => exact .refl h fd near
  | some e =>
    rw [peer?_of_end? he] at hpeer
    obtain rfl := Option.some.inj hpeer
    dsimp only
    cases hshut : e.sendShut with
    | true => exact .refl h fd e.peer
    | false =>
      rw [if_neg Bool.false_ne_true, Bool.false_or]
      refine .modifyEnd e.peer (fun p => by split <;> rfl) fun p hp => ?_
      rw [if_pos rfl, hp, Option.elim_some]
      cases hfull : p.isFull with
      | true =>
        rw [if_pos rfl, if_pos rfl]
        exact .refl p
      | false =>
        rw [if_neg Bool.false_ne_true, if_neg Bool.false_ne_true]
        refine ⟨?_, (Bool.or_false _).symm, fun _ => .inl⟩
        rw [StreamEnd.unread_of_isFull_eq_false hfull, List.nil_append]
        rfl

/-- **When the other side closes its sending direction nothing more can arrive.** -/
theorem shutSend {fd' : Option Nat} (hp : h.Paired) (hface : h.Faces fd' near)
    (hs : h.shutSend fd' = .ok h') : h.Passes fd near [] [] true h' := by
  obtain ⟨far, hstream, hpeer⟩ := hface
  obtain ⟨e, he, rfl⟩ := shutSend_ok hs hstream
  have hne := (hp far near hpeer).1
  rw [peer?_of_end? he] at hpeer
  obtain rfl := Option.some.inj hpeer
  refine .after (.modifyEnd_of_ne hne.symm ?_) (.modifyEnd e.peer ?_ fun p _ => ?_)
  · exact fun _ => rfl
  · exact fun _ => rfl
  · rw [if_pos rfl]
    exact ⟨List.append_nil _, (Bool.or_true _).symm, fun _ => .inl⟩

/-- **When an end goes, nothing more can arrive at its peer**; for other ends it means nothing. -/
theorem hangUp (hne : n ≠ near) (unaccepted : Bool) :
    h.Passes fd near [] [] (h.peer? n = some near) (h.hangUp n unaccepted) := by
  cases he : h.end? n with
  | none =>
    have hnone : h.peer? n = none := by rw [peer?, he]; rfl
    have hsame : h.hangUp n unaccepted = h := by unfold Host.hangUp; rw [he]
    rw [hnone, hsame]
    exact .refl h fd near
  | some e =>
    unfold Host.hangUp
    rw [he, peer?_of_end? he]
    dsimp only
    refine .after (.modifyEnd_of_ne hne ?_) (.modifyEnd e.peer ?_ fun p _ => ?_)
    · exact fun _ => rfl
    · exact fun _ => rfl
    by_cases hpeer : e.peer = near
    · rw [if_pos hpeer, hpeer, decide_eq_true rfl]
      refine ⟨List.append_nil _, (Bool.or_true _).symm, fun errno hfault => ?_⟩
      -- an abrupt end is a reset; otherwise it keeps the fault it has
      split at hfault
      · cases hfault
        exact .inr ⟨rfl, rfl⟩
      · exact .inl hfault
    · have hother : some e.peer ≠ some near := fun heq => hpeer (Option.some.inj heq)
      rw [if_neg hpeer, decide_eq_false hother]
      exact .refl p

/-- So it is when several ends go that nobody has accepted. -/
theorem hangUpAll (backlog : List Nat) : ∀ {h : Host}, h.Paired → near ∉ backlog →
    h.peer? far = some near → h.Passes fd near [] [] (far ∈ backlog)
      (backlog.foldl (fun h number => h.hangUp number true) h) := by
  induction backlog with
  | nil => exact fun {h} _ _ _ => .refl h fd near
  | cons n rest ih =>
    intro h hp hnear hpeer
    obtain ⟨hne, hnear⟩ := not_or.mp fun hmem => hnear (List.mem_cons.mpr hmem)
    have hfirst : h.Passes fd near [] [] _ _ := hangUp (Ne.symm hne) true
    have hrest := ih (hp.of_peer? hfirst.peer?_eq) hnear ((hfirst.peer?_eq far).trans hpeer)
    have hboth := hfirst.trans hrest
    -- the end whose peer is the near one is the other end
    have hiff : h.peer? n = some near ↔ far = n := by
      constructor
      · intro hn
        have heq := (hp n near hn).2
        rw [(hp far near hpeer).2] at heq
        exact Option.some.inj heq
      · rintro rfl
        exact hpeer
    rw [List.foldl_cons]
    simpa only [List.nil_append, List.mem_cons, hiff, Bool.decide_or] using hboth

/-- **When the other end is closed nothing more can arrive.** -/
theorem close {c : Nat} (hp : h.Paired) (hleave : h.Leaves c near) :
    h.Passes fd near [] [] true (h.close c) := by
  obtain ⟨far, hpeer, hobj⟩ := hleave
  have hne := (hp far near hpeer).1
  -- a stream hangs up on its peer, a listener on everybody in its backlog
  obtain ⟨o, ho, hother, hdiscard⟩ : ∃ o, h.object? c = some o ∧ (o ≠ .stream near) ∧
      (h.unwatch c).Passes none near [] [] true ((h.unwatch c).discard c o) := by
    rcases hobj with ho | ⟨bound, backlog, ho, hfar, hnear⟩
    · refine ⟨.stream far, ho, (fun heq => hne (Object.stream.inj heq).symm), ?_⟩
      have hgone : (h.unwatch c).Passes none near [] [] _ _ := hangUp hne.symm false
      rwa [decide_eq_true (show (h.unwatch c).peer? far = some near from hpeer)] at hgone
    · refine ⟨.listener bound backlog, ho, (fun heq => nomatch heq), ?_⟩
      have hgone : ((h.unwatch c).releaseNames c).Passes none near [] [] _ _ :=
        hangUpAll backlog hp hnear hpeer
      rw [decide_eq_true hfar] at hgone
      have hnames : (h.unwatch c).Passes none near [] [] false ((h.unwatch c).releaseNames c) :=
        ⟨fun _ => rfl, id, fun e he => ⟨e, he, .refl e⟩⟩
      exact hnames.after hgone
  have hends : (h.close c).ends = ((h.unwatch c).discard c o).ends := by
    unfold Host.close
    rw [ho]
  refine ⟨fun n => ?_, fun hs => ?_, fun e he => ?_⟩
  · rw [peer?, end?_congr hends]
    exact hdiscard.peer?_eq n
  · rw [streamOf_eq_ok_iff] at hs ⊢
    cases fd with
    | none => cases hs
    | some f =>
      rw [objectOf?_some] at hs ⊢
      have hf : f ≠ c := by
        rintro rfl
        rw [ho] at hs
        exact hother (Option.some.inj hs)
      rw [object?_close ho, if_neg hf, hs]
      rfl
  · rw [end?_congr hends]
    exact hdiscard.near e he

/-- What the other side receives is taken out there. -/
theorem receive_of_ne {fd' : Option Nat} (hs : h.streamOf fd' = .ok n) (hne : n ≠ near)
    (most : Nat) : h.Passes fd near [] [] false (h.receive fd' most).2 := by
  unfold Host.receive
  rw [hs]
  dsimp only
  split
  · exact .refl h fd near
  · split
    · exact .modifyEnd_of_ne hne fun _ => rfl
    · split
      · exact .modifyEnd_of_ne hne fun _ => rfl
      · split
        · exact .refl h fd near
        · exact .refl h fd near

/-! #### What the near side does -/

/-- What the near end sends arrives elsewhere. -/
theorem send_near {fd' : Option Nat} {bytes : List UInt8} {k : Nat} (hp : h.Paired)
    (hstream : h.streamOf fd' = .ok near) (hs : h.send fd' bytes = .ok (k, h')) :
    h.Passes fd near [] [] false h' := by
  obtain ⟨e, he, ⟨-, rfl⟩ | ⟨-, rfl⟩⟩ := send_ok hs hstream
  · exact .refl h' fd near
  · exact .modifyEnd_of_ne (hp near e.peer (peer?_of_end? he)).1 fun _ => rfl

/-- To close the sending direction of the near end does not end what arrives there. -/
theorem shutSend_near {fd' : Option Nat} (hp : h.Paired) (hstream : h.streamOf fd' = .ok near)
    (hs : h.shutSend fd' = .ok h') : h.Passes fd near [] [] false h' := by
  obtain ⟨e, he, rfl⟩ := shutSend_ok hs hstream
  have hne := (hp near e.peer (peer?_of_end? he)).1
  refine .after (.modifyEnd near ?_ fun p _ => ?_) (.modifyEnd_of_ne hne ?_)
  · exact fun _ => rfl
  · rw [if_pos rfl]
    exact ⟨List.append_nil _, (Bool.or_false _).symm, fun _ => .inl⟩
  · exact fun _ => rfl

end Passes

/-! ### Receiving -/

/-- **What is received at the near end.**  As long as there are bytes to read it is the next of
them, as many as are asked for; then the end of the stream or a failure. -/
theorem receive_spec (hs : h.streamOf fd = .ok near) (he : h.end? near = some e) (most : Nat) :
    (e.unread ≠ [] ∧ (h.receive fd most).1 = .ok (e.unread.take most) ∧
        h.Passes fd near [] (e.unread.take most) false (h.receive fd most).2) ∨
      (e.unread = [] ∧ h.Passes fd near [] [] false (h.receive fd most).2 ∧
        (h.receive fd most).1 = match e.fault with
          | some errno => .error errno
          | none => if e.receiveShut then .ok [] else .error .wouldBlock) := by
  unfold receive
  rw [hs]
  dsimp only
  rw [he]
  dsimp only
  cases hdata : e.hasData with
  | true =>
    refine .inl ⟨StreamEnd.hasData_iff.mp hdata, ?_⟩
    rw [if_pos rfl]
    -- the zero bytes fill up what the others leave
    have hzeros : min e.padding (most - (e.inbox.take most).length)
        = min (most - e.inbox.length) e.padding := by
      rw [List.length_take]
      omega
    have htake : e.unread.take most = e.inbox.take most ++
        List.replicate (min e.padding (most - (e.inbox.take most).length)) 0 := by
      rw [hzeros, StreamEnd.unread, List.take_append, List.take_replicate]
    refine ⟨congrArg Except.ok htake.symm, ?_⟩
    refine .modifyEnd near (fun _ => rfl) fun e' he' => ?_
    cases he.symm.trans he'
    rw [if_pos rfl]
    refine ⟨?_, (Bool.or_false _).symm, fun _ => .inl⟩
    have hdrop : e.unread.drop most = StreamEnd.unread { e with
        inbox := e.inbox.drop most
        padding := e.padding - min e.padding (most - (e.inbox.take most).length) } := by
      have hrest : e.padding - min e.padding (most - (e.inbox.take most).length)
          = e.padding - (most - e.inbox.length) := by
        rw [hzeros]
        omega
      rw [StreamEnd.unread, List.drop_append, List.drop_replicate, StreamEnd.unread, hrest]
    rw [List.append_nil, ← hdrop, List.take_append_drop]
  | false =>
    have hnone : e.unread = [] := by
      by_contra hne
      rw [StreamEnd.hasData_iff.mpr hne] at hdata
      cases hdata
    refine .inr ⟨hnone, ?_⟩
    rw [if_neg Bool.false_ne_true]
    cases hfault : e.fault with
    | some errno =>
      refine ⟨.modifyEnd near (fun _ => rfl) fun e' he' => ?_, rfl⟩
      rw [if_pos rfl]
      exact ⟨List.append_nil _, (Bool.or_false _).symm, fun _ h => nomatch h⟩
    | none =>
      cases e.receiveShut with
      | true => exact ⟨.refl h fd near, rfl⟩
      | false => exact ⟨.refl h fd near, rfl⟩

end Host
end EventLoop

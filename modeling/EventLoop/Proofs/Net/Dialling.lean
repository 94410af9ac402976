import EventLoop.Proofs.Address.Writing
import EventLoop.Proofs.Host.Descriptors

/-!
# Who is reached under a name

A connection over the network has two ends, and each is named after an address: one
after the address that the connection comes from, the other after the one that it has
got to.  If that is an address of the host itself, then the other end waits at a
listener that the address is meant for.  If nobody answers there is no other end, and
what is left has no peer to name.

So whoever asks a listener for its name, and connects to that name, gets to a listener
of the host and is told the same name by the connection.

## Main definitions

* `Host.Arrives` — where a connection gets to.

## Main results

* `Host.offer_arrives` — every connection gets to a listener, to another host, or nowhere.
* `Host.dial_names` — **what a connection is named after**.
* `Socket.connectTcp_localName` — **a listener is reached under the name it gives for itself.**
-/

namespace EventLoop

namespace Host

variable {h h' : Host} {fd near far : Nat} {own reached target s t : SocketAddress}
  {backlog : List Nat} {o : Object}

theorem ends_allocate (ha : h.allocate o = .ok (fd, h')) : h'.ends = h.ends := by
  unfold allocate at ha
  split at ha
  · cases ha
    rfl
  · cases ha

theorem exists_allocate (hroom : h.allows 1 = true) (o : Object) :
    ∃ fd h', h.allocate o = .ok (fd, h') := by
  unfold allocate
  rw [if_pos hroom]
  exact ⟨_, _, rfl⟩

theorem streamOf_allocate {n : Nat} (ha : h.allocate (.stream n) = .ok (fd, h')) :
    h'.streamOf (some fd) = .ok n :=
  streamOf_eq_ok_iff.mpr (by rw [objectOf?_some, (allocate_ok ha).2, if_pos rfl])

/-- The two ends of a connection between two addresses are there. -/
def linked (h : Host) (own reached : SocketAddress) : Host :=
  (h.connectEnds (.address reached) (.address own)).2

/-- The second of them stays with who asked for the connection. -/
theorem end?_linked (h : Host) (own reached : SocketAddress) :
    (h.linked own reached).end? h.ends.size
        = some (.new (h.ends.size + 1) (.address reached)) ∧
      (h.linked own reached).end? (h.ends.size + 1)
        = some (.new h.ends.size (.address own)) := by
  unfold end? linked connectEnds
  dsimp only
  constructor
  · rw [Array.getElem?_push, if_neg (by rw [Array.size_push]; omega), Array.getElem?_push,
      if_pos rfl]
  · rw [Array.getElem?_push, if_pos (by rw [Array.size_push])]

/-! ### Listeners -/

/-- Whoever is found listens, and what is meant for the address is meant for him. -/
theorem serverAt_eq_some (hserver : h.serverAt s = some (fd, t, backlog)) :
    h.object? fd = some (.listener (.address t) backlog) ∧ t.port = s.port ∧
      t.address.covers s.address = true := by
  obtain ⟨⟨o, fd'⟩, hmem, hfound⟩ := List.exists_of_findSome?_eq_some hserver
  have hget : h.descriptors[fd']? = some o := by
    rw [← Array.getElem?_toList]
    exact List.mem_zipIdx_iff_getElem?.mp hmem
  -- only a listener on an address of the same port that covers the target is found
  split at hfound
  next t' backlog' fd'' heq =>
    cases heq
    split at hfound
    next hfits =>
      cases hfound
      exact ⟨by rw [object?, hget]; rfl, hfits⟩
    next => cases hfound
  next => cases hfound

/-- A listener that is bound to the address is there to be found, unless another one is found
first. -/
theorem exists_serverAt (hobj : h.object? fd = some (.listener (.address s) backlog)) :
    ∃ fd t backlog, h.serverAt s = some (fd, t, backlog) := by
  have hget : h.descriptors.toList[fd]? = some (some (.listener (.address s) backlog)) := by
    rw [Array.getElem?_toList]
    exact Option.join_eq_some_iff.mp hobj
  have hmem := List.mem_zipIdx_iff_getElem?.mpr
    (show h.descriptors.toList[(some (Object.listener (.address s) backlog), fd).2]? = _ from hget)
  have hsome : (h.serverAt s).isSome = true := by
    refine List.findSome?_isSome_iff.mpr ⟨_, hmem, ?_⟩
    dsimp only
    rw [if_pos ⟨rfl, s.address.covers_self⟩]
    rfl
  obtain ⟨⟨fd', t, backlog'⟩, hserver⟩ := Option.isSome_iff_exists.mp hsome
  exact ⟨fd', t, backlog', hserver⟩

/-! ### Where a connection gets to -/

/-- Where a connection to an address gets to, and what is left of the host then. -/
inductive Arrives (h : Host) (reached : SocketAddress) (near far : Nat) : Host → Prop
  /-- It waits at a listener of the host. -/
  | waits {fd : Nat} {t : SocketAddress} {backlog : List Nat}
      (hobj : h.object? fd = some (.listener (.address t) backlog)) (hport : t.port = reached.port)
      (hcovers : t.address.covers reached.address = true) :
      Arrives h reached near far (h.setObject fd (.listener (.address t) (backlog ++ [far])))
  /-- Another host has answered. -/
  | leaves (hother : h.network.isOwn reached.address = false)
      (hanswer : h.network.outcome reached = none) : Arrives h reached near far h
  /-- Nobody has answered. -/
  | breaks (e : Errno) : Arrives h reached near far (h.breakOff near far e)

/-- **Every connection gets to a listener, to another host, or nowhere.** -/
theorem offer_arrives (h : Host) (reached : SocketAddress) (near far : Nat) :
    h.Arrives reached near far (h.offer reached near far) := by
  unfold offer
  split
  next =>
    split
    next fd t backlog hserver =>
      obtain ⟨hobj, hport, hcovers⟩ := serverAt_eq_some hserver
      exact .waits hobj hport hcovers
    next => exact .breaks _
  next hother =>
    split
    next e _ => exact .breaks e
    next hanswer => exact .leaves (Bool.eq_false_iff.mpr hother) hanswer

namespace Arrives

/-- The near end keeps its peer and its name, and the far end its name unless there is nobody. -/
theorem names (ha : h.Arrives reached near far h') (hne : near ≠ far) {e p : StreamEnd}
    (he : h.end? near = some e) (hp : h.end? far = some p) :
    ∃ e' p', h'.end? near = some e' ∧ h'.end? far = some p' ∧ e'.peer = e.peer ∧
      e'.name = e.name ∧ (p'.name = p.name ∨ p'.name = .nowhere ∧ e'.fault.isSome = true) := by
  cases ha with
  | waits => exact ⟨e, p, he, hp, rfl, rfl, .inl rfl⟩
  | leaves => exact ⟨e, p, he, hp, rfl, rfl, .inl rfl⟩
  | breaks errno =>
    unfold breakOff end? modifyEnd at *
    simp only [Array.getElem?_modify, if_pos, if_neg hne, if_neg hne.symm, he, hp,
      Option.map_some]
    exact ⟨_, _, rfl, rfl, rfl, rfl, .inr ⟨rfl, rfl⟩⟩

end Arrives

/-! ### Dialling -/

theorem dial_eq (hroom : h.allows 1 = true) (hroute : h.route target = .ok (own, reached)) :
    h.dial target = (((h.linked own reached).offer reached (h.ends.size + 1) h.ends.size).allocate
      (.stream (h.ends.size + 1))).mapError SocketFault.socket := by
  unfold dial
  rw [hroom, hroute]
  rfl

/-- A connection that was dialled has got to where its route leads. -/
theorem dial_ok (hd : h.dial target = .ok (fd, h')) : ∃ own reached arrived,
    h.route target = .ok (own, reached) ∧
    (h.linked own reached).Arrives reached (h.ends.size + 1) h.ends.size arrived ∧
    arrived.allocate (.stream (h.ends.size + 1)) = .ok (fd, h') := by
  cases hroom : h.allows 1 with
  | false =>
    unfold dial at hd
    rw [hroom] at hd
    cases hd
  | true =>
    cases hroute : h.route target with
    | error e =>
      unfold dial at hd
      rw [hroom, hroute] at hd
      cases hd
    | ok r =>
      obtain ⟨own, reached⟩ := r
      have harrives := (h.linked own reached).offer_arrives reached (h.ends.size + 1) h.ends.size
      rw [dial_eq hroom hroute] at hd
      refine ⟨own, reached, _, rfl, harrives, ?_⟩
      revert hd
      cases ((h.linked own reached).offer reached (h.ends.size + 1) h.ends.size).allocate
          (.stream (h.ends.size + 1)) with
      | error e => exact fun hd => nomatch hd
      | ok r =>
        intro hd
        cases hd
        rfl

/-- **What a connection is named after**: the address it comes from, and the address it has got to.
If nobody has answered then there is no peer, and why is found out when it is used. -/
theorem dial_names (hd : h.dial target = .ok (fd, h')) : ∃ own reached,
    h.route target = .ok (own, reached) ∧
    h'.ownName (some fd) = .ok (String.ofList own.text) ∧
    (h'.peerName (some fd) = .ok (String.ofList reached.text) ∨
      h'.peerName (some fd) = .error .notConnected ∧
        ∃ e h'', h'.takeFault (some fd) = .ok (some e, h'')) := by
  obtain ⟨own, reached, arrived, hroute, harrives, halloc⟩ := dial_ok hd
  obtain ⟨hfar, hnear⟩ := h.end?_linked own reached
  obtain ⟨e, p, he, hp, hpeer, hname, hname'⟩ := harrives.names (by omega) hnear hfar
  have hends := end?_congr (ends_allocate halloc)
  rw [← hends] at he hp
  have hstream := streamOf_allocate halloc
  have hp' : h'.end? e.peer = some p := by rw [hpeer]; exact hp
  refine ⟨own, reached, hroute, ?_, ?_⟩
  · rw [ownName_of_end? hstream he, hname]
    rfl
  · rw [peerName_of_end? hstream he hp']
    -- a call that was broken off tells so, and names nobody
    rcases hname' with hthere | ⟨hnobody, hbroken⟩
    · left
      rw [hthere]
      rfl
    · right
      rw [hnobody]
      obtain ⟨errno, hfault⟩ := Option.isSome_iff_exists.mp hbroken
      refine ⟨rfl, errno, h'.modifyEnd (h.ends.size + 1) fun e => { e with fault := none }, ?_⟩
      unfold takeFault
      rw [hstream]
      dsimp only
      rw [he, Option.bind_some, hfault]

/-- Whoever connects to an address at which somebody listens on the host gets to a listener. -/
theorem dial_served (hroom : h.allows 1 = true)
    (hobj : h.object? fd = some (.listener (.address s) backlog))
    (hhost : s.address.isUnspecified = false) (hfault : h.network.dialFault s.address = none)
    (hown : h.network.isOwn s.address = true) (hport : h.freePort.isSome = true) :
    ∃ c h', h.dial s = .ok (c, h') ∧ h'.peerName (some c) = .ok (String.ofList s.text) ∧
      ∃ server t rest, h.object? server = some (.listener (.address t) rest) ∧
        t.port = s.port ∧ t.address.covers s.address = true ∧
        h'.object? server = some (.listener (.address t) (rest ++ [h.ends.size])) := by
  obtain ⟨port, hport⟩ := Option.isSome_iff_exists.mp hport
  have hroute : h.route s = .ok (⟨h.network.source s.address, port⟩, s) := by
    unfold route
    rw [hfault, hport, hhost]
    rfl
  generalize (⟨h.network.source s.address, port⟩ : SocketAddress) = own at hroute
  obtain ⟨server, t, rest, hserver⟩ := exists_serverAt hobj
  obtain ⟨hthere, hat, hcovers⟩ := serverAt_eq_some hserver
  -- the caller waits at the listener that the system found
  let arrived := (h.linked own s).setObject server (.listener (.address t) (rest ++ [h.ends.size]))
  have hoffer : (h.linked own s).offer s (h.ends.size + 1) h.ends.size = arrived := by
    have hown' : (h.linked own s).network.isOwn s.address = true := hown
    have hserver' : (h.linked own s).serverAt s = some (server, t, rest) := hserver
    unfold offer
    rw [hown', hserver']
    rfl
  obtain ⟨c, h', halloc⟩ := exists_allocate (h := arrived) hroom (.stream (h.ends.size + 1))
  have hdial : h.dial s = .ok (c, h') := by
    rw [dial_eq hroom hroute, hoffer, halloc]
    rfl
  refine ⟨c, h', hdial, ?_, server, t, rest, hthere, hat, hcovers, ?_⟩
  · obtain ⟨hfar, hnear⟩ := h.end?_linked own s
    have hends : ∀ n, h'.end? n = (h.linked own s).end? n := fun n =>
      (end?_congr (ends_allocate halloc) n).trans rfl
    rw [peerName_of_end? (streamOf_allocate halloc) ((hends _).trans hnear) ((hends _).trans hfar)]
    rfl
  · -- the new descriptor is not the listener's, which is in use
    have hserving : arrived.object? server
        = some (.listener (.address t) (rest ++ [h.ends.size])) := by
      rw [object?_setObject (show (h.linked own s).object? server = _ from hthere), if_pos rfl]
    obtain ⟨hfree, hafter⟩ := allocate_ok halloc
    have hne : server ≠ c := by
      rintro rfl
      rw [hfree] at hserving
      cases hserving
    rw [hafter, if_neg hne, hserving]

end Host

/-- **A listener is reached under the name it gives for itself.**  On a host that can be reached
under the address, whoever connects to that name gets to a listener which the address is meant for,
and is told the same name by the connection. -/
theorem Socket.connectTcp_localName {l : Listener} {h : Host} {fd : Nat} {s : SocketAddress}
    {backlog : List Nat} (hl : l.descriptor = some fd)
    (hobj : h.object? fd = some (.listener (.address s) backlog)) (hroom : h.allows 1 = true)
    (hhost : s.address.isUnspecified = false) (hfault : h.network.dialFault s.address = none)
    (hown : h.network.isOwn s.address = true) (hport : h.freePort.isSome = true) :
    ∃ name c h', l.localName h = .ok name ∧ Socket.connectTcp name h = (.ok c, h') ∧
      c.peerName h' = .ok name ∧
      ∃ server t rest, h.object? server = some (.listener (.address t) rest) ∧
        t.port = s.port ∧ t.address.covers s.address = true ∧
        h'.object? server = some (.listener (.address t) (rest ++ [h.ends.size])) := by
  obtain ⟨c, h', hdial, hpeer, hserved⟩ := Host.dial_served hroom hobj hhost hfault hown hport
  obtain ⟨host, hparse, -⟩ := s.exists_parse?_text
  refine ⟨String.ofList s.text, ⟨.tcp, some c⟩, h', ?_, ?_, ?_, hserved⟩
  · rw [Listener.localName, Host.ownName, hl, Host.objectOf?_some, hobj]
    rfl
  · unfold connectTcp
    rw [String.toList_ofList, hparse]
    dsimp only
    rw [hdial]
  · rw [Socket.peerName, hpeer]
    rfl

end EventLoop

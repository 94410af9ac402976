import EventLoop.Proofs.Address.Endpoint
import EventLoop.Proofs.Host.Backlog
import EventLoop.Proofs.Host.Streams

/-!
# Written addresses

The text that is written for an address is a literal for it, whichever form is chosen: a
dotted quad, all groups of an IPv6 address, or some of them around the longest run of
zeros, the last two perhaps as a dotted quad.  Brackets and colon are put where reading
looks for them, so a host can be reached under the name that it gives for itself.

## Main results

* `IPv4.quad_text`, `IPv6.literal_text` — the text of an address is a literal for it.
* `SocketAddress.text_read_back` — **what is written for an address and a port is read as
  that address and port**, and so is every name that a listener or a connection tells.
-/

namespace EventLoop

open Address

namespace IPv4

theorem octet_decimalText (o : UInt8) : Octet (decimalText o.toNat) o where
  numeral := numeral_decimalText o.toNat
  canonical h := by
    rw [eq_zero_of_head?_decimalText h]
    rfl

/-- **The text of an IPv4 address is a dotted quad for it.** -/
theorem quad_text (ip : IPv4) : Quad ip.text ip :=
  .mk (octet_decimalText ip.a) (octet_decimalText ip.b) (octet_decimalText ip.c)
    (octet_decimalText ip.d)

end IPv4

namespace IPv6

theorem group_hexadecimalText (g : UInt16) : Group (hexadecimalText g.toNat) g where
  numeral := numeral_hexadecimalText g.toNat
  short := (Nat.length_toDigits_le_iff (by decide) (by decide)).mpr g.toNat_lt

theorem groups_join (quad : Bool) (gs : List UInt16) (hne : gs ≠ []) :
    Groups quad (join gs) gs := by
  induction gs with
  | nil => exact absurd rfl hne
  | cons g rest ih =>
    cases rest with
    | nil => exact .single (group_hexadecimalText g)
    | cons g' rest => exact .cons (group_hexadecimalText g) (ih nofun)

theorem stretch_join (quad : Bool) (gs : List UInt16) : Stretch quad (join gs) gs := by
  rcases eq_or_ne gs [] with rfl | hne
  · exact .inl ⟨rfl, rfl⟩
  · exact .inr (groups_join quad gs hne)

/-- A group is put together again from its octets. -/
theorem shift_or_eq (g : UInt16) :
    (g >>> 8).toUInt8.toUInt16 <<< 8 ||| g.toUInt8.toUInt16 = g := by
  have hg : g.toNat < 2 ^ 16 := g.toNat_lt
  apply UInt16.toNat_inj.mp
  simp only [UInt16.toNat_or, UInt16.toNat_shiftLeft, UInt8.toNat_toUInt16, UInt16.toNat_toUInt8,
    UInt16.toNat_shiftRight, UInt16.reduceToNat]
  -- the two bytes of a group do not overlap, so that joining them is adding
  show (g.toNat >>> 8 % 2 ^ 8) <<< 8 % 2 ^ 16 ||| g.toNat % 2 ^ 8 = g.toNat
  rw [Nat.shiftRight_eq_div_pow, Nat.shiftLeft_eq, Nat.mod_eq_of_lt (b := 2 ^ 16) (by omega),
    ← Nat.shiftLeft_eq, ← Nat.shiftLeft_add_eq_or_of_lt (Nat.mod_lt _ (by decide)),
    Nat.shiftLeft_eq]
  omega

theorem embed_extract (high low : UInt16) : embed (extract high low) = [high, low] := by
  rw [embed, extract, shift_or_eq, shift_or_eq]

/-! ### The longest run of zeros -/

theorem take_of_le_zeroRun {n : Nat} {gs : List UInt16} (h : n ≤ zeroRun gs) :
    gs.take n = List.replicate n 0 := by
  -- on the groups: the run ends at the first that is not zero
  induction gs generalizing n with
  | nil =>
    obtain rfl := Nat.le_zero.mp h
    rfl
  | cons g gs ih =>
    cases n with
    | zero => rfl
    | succ n =>
      rw [zeroRun, List.takeWhile_cons] at h
      split at h
      · next hg =>
        rw [List.take_succ_cons, List.replicate_succ, eq_of_beq hg,
          ih (Nat.le_of_succ_le_succ h)]
      · cases h

/-- The longest run is a run. -/
theorem longestRun_le_zeroRun (gs : List UInt16) :
    (longestRun gs).2 ≤ zeroRun (gs.drop (longestRun gs).1) := by
  unfold longestRun
  refine List.foldlRecOn (List.range gs.length) _
    (motive := fun best : Nat × Nat => best.2 ≤ zeroRun (gs.drop best.1)) (Nat.zero_le _) ?_
  intro best hbest i hi
  dsimp only
  split
  · exact Nat.le_refl _
  · exact hbest

theorem eq_of_longestRun (gs : List UInt16) :
    gs = gs.take (longestRun gs).1 ++ List.replicate (longestRun gs).2 0
      ++ gs.drop ((longestRun gs).1 + (longestRun gs).2) := by
  rw [← take_of_le_zeroRun (longestRun_le_zeroRun gs), List.append_assoc, ← List.drop_drop,
    List.take_append_drop, List.take_append_drop]

/-- **The text of an IPv6 address is a literal for it.** -/
theorem literal_text (ip : IPv6) : Literal ip.text ip := by
  have hgroups := eq_of_longestRun ip.groups.toList
  have hlen : ip.groups.toList.length = 8 := Vector.length_toList
  unfold text
  dsimp only
  split
  · exact .full (groups_join true _ (List.ne_nil_of_length_pos (by omega)))
  · next hrun =>
    -- whatever stands for the groups behind the gap
    have hgap : ∀ after, Stretch true after (ip.groups.toList.drop
          ((longestRun ip.groups.toList).1 + (longestRun ip.groups.toList).2)) →
        Literal (join (ip.groups.toList.take (longestRun ip.groups.toList).1) ++ [':', ':']
          ++ after) ip := by
      intro after hafter
      rw [List.append_assoc]
      exact .gap (stretch_join false _) hafter (by omega) hgroups
    split
    · next high low _ hdrop =>
      apply hgap
      rw [hdrop, ← embed_extract]
      exact .inr (.quad rfl (extract high low).quad_text)
    · next high low _ hdrop =>
      rw [List.append_assoc]
      apply hgap
      rw [hdrop, ← embed_extract]
      exact .inr (.cons (group_hexadecimalText 0xFFFF) (.quad rfl (extract high low).quad_text))
    · exact hgap _ (stretch_join true _)

end IPv6

/-! ### Endpoints -/

namespace SocketAddress

open Endpoint

theorem port_decimalText (port : UInt16) : Port (decimalText port.toNat) port.toNat where
  numeral := numeral_decimalText port.toNat
  small := Nat.le_of_lt_succ port.toNat_lt

/-- What is written for an address and a port is read as both, from a host that is read as the
address. -/
theorem exists_parse?_text (s : SocketAddress) : ∃ host,
    Endpoint.parse? s.text = some ⟨host, s⟩ ∧ Address.parse? host = some s.address := by
  obtain ⟨address, port⟩ := s
  have hport := port_decimalText port
  cases address with
  | v4 ip =>
    have hcolon := IPv6.colon_notMem_quad ip.quad_text
    have hread : Address.parse? ip.text = some (.v4 ip) :=
      Address.parse?_eq_some_iff.mpr (.inl ⟨_, ip, rfl, ip.quad_text, .bare, hcolon⟩)
    exact ⟨ip.text, parse?_enclosed (enclosed_quad ip.quad_text .bare hcolon) hport hread, hread⟩
  | v6 ip =>
    have hread : Address.parse? ip.text = some (.v6 ip) :=
      Address.parse?_eq_some_iff.mpr (.inr ⟨_, ip, rfl, ip.literal_text, .bare⟩)
    -- the brackets enclose the literal, and the last colon is the port's
    have htext : SocketAddress.text ⟨.v6 ip, port⟩
        = '[' :: (ip.text ++ [']']) ++ ':' :: decimalText port.toNat := by
      show '[' :: (ip.text ++ ([']'] ++ ':' :: decimalText port.toNat)) = _
      rw [← List.append_assoc]
      rfl
    rw [htext]
    exact ⟨ip.text, parse?_enclosed (.inBrackets (List.ne_nil_of_mem ip.literal_text.colon_mem))
      hport hread, hread⟩

/-- When a connection is accepted, its peer is told as the stream itself tells it afterwards. -/
theorem peer_accept {l : Listener} {h h' : Host} {c : Connection}
    (ha : l.accept h = (.ok c, h')) : c.peer = (c.socket.peerName h').toOption.getD "" := by
  rw [Listener.accept_eq] at ha
  split at ha
  next fd peer h'' hok =>
    cases ha
    obtain ⟨server, bound, number, rest, -, ho, halloc, hpeer⟩ := Host.accept_eq_ok hok
    -- the accepted end is the one whose far name the connection carries
    have hstream : h'.streamOf (some fd) = .ok number :=
      Host.streamOf_eq_ok_iff.mpr (Host.object?_accept ho halloc).2
    refine hpeer.trans ?_
    rw [Socket.peerName, Host.peerName, hstream]
    dsimp only
    cases h'.farName number <;> rfl
  next => cases ha

/-- An answer names a socket address: it is read as this address. -/
def Tells (answer : Except Failure String) (s : SocketAddress) : Prop :=
  ∃ name host, answer = .ok name ∧ Endpoint.parse? name.toList = some ⟨host, s⟩ ∧
    Address.parse? host = some s.address

/-- The text of a socket address names it. -/
theorem tells_text (s : SocketAddress) : Tells (.ok (String.ofList s.text)) s := by
  obtain ⟨host, hparse, hread⟩ := s.exists_parse?_text
  refine ⟨_, host, rfl, ?_, hread⟩
  rw [String.toList_ofList]
  exact hparse

/-- **What is written for an address and a port is read back.**  The text of any address of either
family and any port is accepted as an endpoint with that port, and its host is read as the same
address.  So is every name that is told: that of a listener which is bound to the address, that of
either end of a connection, and that of the peer when a connection is accepted. -/
theorem text_read_back (s : SocketAddress) :
    (∃ host, Endpoint.parse? s.text = some ⟨host, s⟩ ∧ Address.parse? host = some s.address) ∧
      ∀ h : Host,
        (∀ (l : Listener) backlog,
          h.objectOf? l.descriptor = some (.listener (.address s) backlog) →
            Tells (l.localName h) s) ∧
        (∀ (c : Socket) n e, h.streamOf c.descriptor = .ok n → h.end? n = some e →
          (e.name = .address s → Tells (c.localName h) s) ∧
          ∀ p, h.end? e.peer = some p → p.name = .address s → Tells (c.peerName h) s) ∧
        ∀ (l : Listener) c h', l.accept h = (.ok c, h') → Tells (c.socket.peerName h') s →
          Tells (.ok c.peer) s := by
  refine ⟨s.exists_parse?_text, fun h => ⟨fun l backlog hbound => ?_, fun c n e hn he =>
    ⟨fun hown => ?_, fun p hp hfar => ?_⟩, fun l c h' ha htells => ?_⟩⟩
  · rw [Listener.localName, Host.ownName, hbound]
    exact s.tells_text
  · rw [Socket.localName, Host.ownName_of_end? hn he, hown]
    exact s.tells_text
  · rw [Socket.peerName, Host.peerName_of_end? hn he hp, hfar]
    exact s.tells_text
  · obtain ⟨name, host, hpeer, hread⟩ := htells
    refine ⟨name, host, ?_, hread⟩
    rw [peer_accept ha, hpeer]
    rfl

/-! ### A connection -/

/-- A network that does not reach beyond the host. -/
def loopbackNetwork : Network where
  bindFault _ := none
  dialFault _ := none
  source a := a
  isOwn _ := true
  outcome _ := none

/-- The address where the host can be reached. -/
def callee : SocketAddress := ⟨.v6 ⟨#v[0, 0, 0, 0, 0, 0, 0, 1]⟩, 8080⟩

/-- The address that the first connection comes from. -/
def caller : SocketAddress := { callee with port := 32768 }

/-- A listener, a connection to it, the same connection once it is accepted, and the host. -/
structure Call where
  /-- The listener. -/
  listener : Listener
  /-- Its end of whoever connects. -/
  own : Socket
  /-- What the listener accepts. -/
  accepted : Connection
  /-- The host. -/
  host : Host

/-- Somebody listens on the host, and somebody connects. -/
def loopbackCall? : Option Call :=
  match Listener.bindTcp "[::1]:8080" { Host.initial .silent with network := loopbackNetwork } with
  | (.error _, _) => none
  | (.ok l, h) =>
    match Socket.connectTcp "[::1]:8080" h with
    | (.error _, _) => none
    | (.ok c, h) =>
      match l.accept h with
      | (.error _, _) => none
      | (.ok a, h) => some ⟨l, c, a, h⟩

theorem isSome_loopbackCall? : loopbackCall?.isSome = true := by decide +kernel

/-- What comes of it. -/
def loopbackCall : Call := loopbackCall?.get isSome_loopbackCall?

/-- All names that are told about this connection are read as the addresses of its two ends. -/
theorem text_read_back_loopbackCall :
    Tells (loopbackCall.listener.localName loopbackCall.host) callee ∧
    Tells (loopbackCall.own.localName loopbackCall.host) caller ∧
    Tells (loopbackCall.own.peerName loopbackCall.host) callee ∧
    Tells (loopbackCall.accepted.socket.localName loopbackCall.host) callee ∧
    Tells (loopbackCall.accepted.socket.peerName loopbackCall.host) caller := by
  have hlistener : loopbackCall.host.objectOf? loopbackCall.listener.descriptor
      = some (.listener (.address callee) []) := by decide +kernel
  have hown : loopbackCall.host.streamOf loopbackCall.own.descriptor = .ok 1 := by decide +kernel
  have haccepted : loopbackCall.host.streamOf loopbackCall.accepted.socket.descriptor = .ok 0 := by
    decide +kernel
  have hnear : loopbackCall.host.end? 1 = some (.new 0 (.address caller)) := by decide +kernel
  have hfar : loopbackCall.host.end? 0 = some (.new 1 (.address callee)) := by decide +kernel
  obtain ⟨hbound, hcallee, -⟩ := (text_read_back callee).2 loopbackCall.host
  obtain ⟨-, hcaller, -⟩ := (text_read_back caller).2 loopbackCall.host
  exact ⟨hbound _ _ hlistener, (hcaller _ _ _ hown hnear).1 rfl,
    (hcallee _ _ _ hown hnear).2 _ hfar rfl, (hcallee _ _ _ haccepted hfar).1 rfl,
    (hcaller _ _ _ haccepted hfar).2 _ hnear rfl⟩

end SocketAddress

end EventLoop

import EventLoop.Address.Endpoint
import EventLoop.Proofs.Address.Literals
import Mathlib.Data.List.Basic
import Mathlib.Data.List.TakeWhile

/-!
# Endpoints in writing

An endpoint is a host and a port: `localhost` or a dotted quad with a colon and a port
behind it, or an IPv6 literal in brackets.  Reading accepts all of these, and some texts
besides: brackets need not hold an IPv6 literal, and a host ends at a NUL character
whatever follows.  Which texts these are is stated in full.

## Main definitions

* `Trailed t host` — `host` is `t`, or `t` and a NUL character with anything behind it.
* `Endpoint.Port cs p`, `Endpoint.Enclosed before host` — what stands behind the last colon,
  and in front of it.
* `Endpoint.Written s host p` — the documented forms.
* `Endpoint.Tolerated s host p` — what is accepted besides.
* `Endpoint.Plain s` — no NUL character, and a colon in a host that stands in brackets.

## Main results

* `Address.parse?_eq_some_iff`, `Endpoint.parse?_eq_some_iff` — what is read, piece by piece.
* `Endpoint.Written.plain`, `Endpoint.Tolerated.not_plain` — what tells the two kinds apart.
* `Endpoint.accepted_iff_written_or_tolerated` — **exactly these texts are accepted**, and of
  the plain ones those of a documented form.
* `Endpoint.not_written_of_accepted` — two texts that are accepted and of no documented form.
-/

namespace EventLoop

open Address

/-! ### Hosts -/

/-- A text, or the text and anything behind a NUL character. -/
inductive Trailed (t : List Char) : List Char → Prop
  /-- There is nothing behind it. -/
  | bare : Trailed t t
  /-- There is something behind it. -/
  | behind (junk : List Char) : Trailed t (t ++ '\x00' :: junk)

theorem Trailed.exists_append {t host : List Char} (h : Trailed t host) :
    ∃ tail, host = t ++ tail := by
  cases h with
  | bare => exact ⟨[], (List.append_nil t).symm⟩
  | behind junk => exact ⟨_, rfl⟩

theorem Trailed.mem {t host : List Char} (h : Trailed t host) {c : Char} (hc : c ∈ t) :
    c ∈ host := by
  obtain ⟨tail, rfl⟩ := h.exists_append
  exact List.mem_append_left tail hc

namespace Address

theorem trailed_beforeNul (host : List Char) : Trailed (beforeNul host) host := by
  induction host with
  | nil => exact .bare
  | cons c host ih =>
    -- the host ends at the first NUL
    by_cases hc : c = '\x00'
    · subst hc
      exact .behind host
    · have hfront : beforeNul (c :: host) = c :: beforeNul host :=
        List.takeWhile_cons_of_pos (decide_eq_true hc)
      rw [hfront]
      generalize beforeNul host = t at ih
      cases ih with
      | bare => exact .bare
      | behind junk => exact .behind junk

theorem beforeNul_of_trailed {t host : List Char} (h : Trailed t host) (ht : '\x00' ∉ t) :
    beforeNul host = t := by
  have hall : ∀ c ∈ t, decide (c ≠ '\x00') = true :=
    fun c hc => decide_eq_true fun heq => ht (heq ▸ hc)
  cases h with
  | bare => exact List.takeWhile_eq_self_iff.mpr hall
  | behind junk =>
    rw [beforeNul, List.takeWhile_append_of_pos hall]
    exact List.append_nil t

/-- A host is a dotted quad without a colon, or an IPv6 literal, and may go on behind a NUL
character. -/
theorem parse?_eq_some_iff {host : List Char} {a : Address} : parse? host = some a ↔
    (∃ q ip, a = .v4 ip ∧ IPv4.Quad q ip ∧ Trailed q host ∧ ':' ∉ host) ∨
      ∃ x ip, a = .v6 ip ∧ IPv6.Literal x ip ∧ Trailed x host := by
  constructor
  · intro h
    unfold parse? at h
    split at h
    · obtain ⟨ip, hip, rfl⟩ := Option.map_eq_some_iff.mp h
      exact .inr ⟨_, ip, rfl, IPv6.parse?_eq_some_iff.mp hip, trailed_beforeNul host⟩
    · next hcolon =>
      obtain ⟨ip, hip, rfl⟩ := Option.map_eq_some_iff.mp h
      exact .inl ⟨_, ip, rfl, IPv4.parse?_eq_some_iff.mp hip, trailed_beforeNul host, hcolon⟩
  · rintro (⟨q, ip, rfl, hq, htrailed, hcolon⟩ | ⟨x, ip, rfl, hx, htrailed⟩)
    · rw [parse?, if_neg hcolon, beforeNul_of_trailed htrailed (hq.notMem (by decide) (by decide)),
        IPv4.parse?_eq_some_iff.mpr hq]
      rfl
    · rw [parse?, if_pos (htrailed.mem hx.colon_mem),
        beforeNul_of_trailed htrailed (hx.notMem (by decide) (by decide) (by decide)),
        IPv6.parse?_eq_some_iff.mpr hx]
      rfl

end Address

namespace Endpoint

/-! ### Reading -/

/-- A port in writing. -/
structure Port (cs : List Char) (p : Nat) : Prop where
  /-- The characters are a numeral for the port. -/
  numeral : Numeral DecimalDigit 10 cs p
  /-- It fits into sixteen bits. -/
  small : p ≤ 65535

theorem Port.notMem {cs : List Char} {p : Nat} (h : Port cs p) {c : Char}
    (hc : ∀ d < 10, c ≠ d.digitChar) : c ∉ cs :=
  h.numeral.notMem fun d hd => hc d hd.1 hd.2

theorem port?_eq_some_iff {cs : List Char} {p : UInt16} : port? cs = some p ↔ Port cs p.toNat := by
  constructor
  · intro h
    unfold port? at h
    split at h
    · next n hn =>
      split at h
      · next hle =>
        obtain rfl := Option.some.inj h
        rw [UInt16.toNat_ofNat', Nat.mod_eq_of_lt (by omega)]
        exact ⟨decimal?_eq_some_iff.mp hn, hle⟩
      · cases h
    · cases h
  · rintro ⟨hnumeral, hsmall⟩
    rw [port?, decimal?_eq_some_iff.mpr hnumeral]
    show (if p.toNat ≤ 65535 then some (UInt16.ofNat p.toNat) else none) = some p
    rw [if_pos hsmall, UInt16.ofNat_toNat]

/-- What stands before the port for a host: the host in brackets, or a host without a colon that
does not begin with a bracket. -/
inductive Enclosed : List Char → List Char → Prop
  | inBrackets {host : List Char} (hne : host ≠ []) : Enclosed ('[' :: (host ++ [']'])) host
  | bare {host : List Char} (hne : host ≠ []) (hhead : host.head? ≠ some '[')
    (hcolon : ':' ∉ host) : Enclosed host host

theorem unbracket?_eq_some_iff {before host : List Char} :
    unbracket? before = some host ↔ Enclosed before host := by
  constructor
  · intro h
    unfold unbracket? at h
    split at h
    · cases h
    · next rest =>
      split at h
      · next hrest =>
        obtain rfl := Option.some.inj h
        -- the rest ends in the closing bracket
        have hlast : rest = rest.dropLast ++ [']'] :=
          (List.dropLast_append_getLast? _ hrest.2).symm
        have hlen := congrArg List.length hlast
        rw [List.length_append, List.length_singleton] at hlen
        have hbefore : Enclosed ('[' :: (rest.dropLast ++ [']'])) rest.dropLast :=
          .inBrackets (List.ne_nil_of_length_pos (by omega))
        rwa [← hlast] at hbefore
      · cases h
    · next hne hbracket =>
      split at h
      · cases h
      · next hcolon =>
        obtain rfl := Option.some.inj h
        refine .bare hne (fun hhead => ?_) hcolon
        obtain ⟨rest, rfl⟩ := List.head?_eq_some_iff.mp hhead
        exact hbracket rest rfl
  · intro h
    cases h with
    | inBrackets hne =>
      have hlen : 2 ≤ (host ++ [']']).length := by
        rw [List.length_append, List.length_singleton]
        exact Nat.succ_le_succ (List.length_pos_of_ne_nil hne)
      rw [unbracket?, if_pos ⟨hlen, List.getLast?_concat⟩, List.dropLast_concat]
    | bare hne hhead hcolon =>
      unfold unbracket?
      split
      · exact absurd rfl hne
      · exact absurd rfl hhead
      · exact if_neg hcolon

/-- **What is read:** a host, a colon and a port. -/
theorem parse?_eq_some_iff {s : List Char} {e : Endpoint} : parse? s = some e ↔
    ∃ before port host, s = before ++ ':' :: port ∧ Port port e.target.port.toNat ∧
      Enclosed before host ∧ e.host = (if host = localhost then loopback else host) ∧
      Address.parse? e.host = some e.target.address := by
  constructor
  · intro h
    obtain ⟨⟨before, cs⟩, hsplit, h⟩ := Option.bind_eq_some_iff.mp h
    obtain ⟨host, hhost, h⟩ := Option.bind_eq_some_iff.mp h
    obtain ⟨port, hport, h⟩ := Option.bind_eq_some_iff.mp h
    obtain ⟨address, haddress, h⟩ := Option.bind_eq_some_iff.mp h
    obtain rfl := Option.some.inj h
    exact ⟨before, cs, host, (splitLast?_eq_some_iff.mp hsplit).1, port?_eq_some_iff.mp hport,
      unbracket?_eq_some_iff.mp hhost, rfl, haddress⟩
  · rintro ⟨before, cs, host, rfl, hport, hhost, heq, haddress⟩
    -- the port has no colon, so the last colon is the one in front of it
    rw [parse?, splitLast?_eq_some_iff.mpr ⟨rfl, hport.notMem (by decide)⟩]
    show ((unbracket? before).bind fun inner => (port? cs).bind fun port =>
      (Address.parse? (if inner = localhost then loopback else inner)).bind fun address =>
        some ⟨if inner = localhost then loopback else inner, ⟨address, port⟩⟩) = some e
    rw [unbracket?_eq_some_iff.mpr hhost, Option.bind_some, port?_eq_some_iff.mpr hport,
      Option.bind_some, ← heq, haddress]
    rfl

/-! ### Documented forms and others -/

/-- The documented forms of an endpoint, with the host and the port that they stand for. -/
inductive Written : List Char → List Char → Nat → Prop
  /-- The loopback address by its name. -/
  | name {cs : List Char} {p : Nat} (hp : Port cs p) : Written (localhost ++ ':' :: cs) loopback p
  /-- A dotted quad. -/
  | quad {q cs : List Char} {ip : IPv4} {p : Nat} (hq : IPv4.Quad q ip) (hp : Port cs p) :
    Written (q ++ ':' :: cs) q p
  /-- An IPv6 literal in brackets. -/
  | literal {x cs : List Char} {ip : IPv6} {p : Nat} (hx : IPv6.Literal x ip) (hp : Port cs p) :
    Written ('[' :: (x ++ [']']) ++ ':' :: cs) x p

/-- What is accepted besides. -/
inductive Tolerated : List Char → List Char → Nat → Prop
  /-- The name of the loopback address in brackets. -/
  | name {cs : List Char} {p : Nat} (hp : Port cs p) :
    Tolerated ('[' :: (localhost ++ [']']) ++ ':' :: cs) loopback p
  /-- A dotted quad in brackets, whatever is behind a NUL character. -/
  | quad {q host cs : List Char} {ip : IPv4} {p : Nat} (hq : IPv4.Quad q ip)
    (hhost : Trailed q host) (hcolon : ':' ∉ host) (hp : Port cs p) :
    Tolerated ('[' :: (host ++ [']']) ++ ':' :: cs) host p
  /-- A dotted quad with a NUL character behind it. -/
  | cutQuad {q junk cs : List Char} {ip : IPv4} {p : Nat} (hq : IPv4.Quad q ip)
    (hcolon : ':' ∉ junk) (hp : Port cs p) :
    Tolerated (q ++ '\x00' :: junk ++ ':' :: cs) (q ++ '\x00' :: junk) p
  /-- An IPv6 literal with a NUL character behind it. -/
  | cutLiteral {x junk cs : List Char} {ip : IPv6} {p : Nat} (hx : IPv6.Literal x ip)
    (hp : Port cs p) :
    Tolerated ('[' :: (x ++ '\x00' :: junk ++ [']']) ++ ':' :: cs) (x ++ '\x00' :: junk) p

/-- There is no NUL character, and a host in brackets has a colon. -/
structure Plain (s : List Char) : Prop where
  /-- There is no NUL character. -/
  noNul : '\x00' ∉ s
  /-- A host in brackets has a colon. -/
  colon_mem : ∀ host cs, s = '[' :: (host ++ [']']) ++ ':' :: cs → ':' ∉ cs → ':' ∈ host

theorem Written.noNul {s host : List Char} {p : Nat} (h : Written s host p) : '\x00' ∉ s := by
  cases h with
  | name hp =>
    rw [List.mem_append, List.mem_cons, not_or, not_or]
    exact ⟨by decide, by decide, hp.notMem (by decide)⟩
  | quad hq hp =>
    rw [List.mem_append, List.mem_cons, not_or, not_or]
    exact ⟨hq.notMem (by decide) (by decide), by decide, hp.notMem (by decide)⟩
  | literal hx hp =>
    simp only [List.mem_append, List.mem_cons, List.mem_nil_iff, not_or]
    exact ⟨⟨by decide, hx.notMem (by decide) (by decide) (by decide), by decide, not_false⟩,
      by decide, hp.notMem (by decide)⟩

/-- A documented form is plain. -/
theorem Written.plain {s host : List Char} {p : Nat} (h : Written s host p) : Plain s where
  noNul := h.noNul
  colon_mem inner cs' heq hcs' := by
    cases h with
    | name hp =>
      have hhead : some 'l' = some '[' := congrArg List.head? heq
      exact absurd hhead (by decide)
    | quad hq hp =>
      obtain ⟨c, rest, hc, hbracket⟩ :=
        exists_cons_of_notMem hq.ne_nil (hq.notMem (c := '[') (by decide) (by decide)) _
      rw [hc] at heq
      exact absurd (List.cons.inj heq).1 hbracket
    | literal hx hp =>
      -- the last colon of the text stands before the port on either side
      have hsplit := splitLast?_eq_some_iff.mpr ⟨heq, hcs'⟩
      rw [splitLast?_eq_some_iff.mpr ⟨rfl, hp.notMem (by decide)⟩, Option.some.injEq,
        Prod.mk.injEq, List.cons.injEq] at hsplit
      exact List.append_cancel_right hsplit.1.2 ▸ hx.colon_mem

theorem Tolerated.not_plain {s host : List Char} {p : Nat} (h : Tolerated s host p) :
    ¬Plain s := by
  intro hplain
  -- each tolerated form has brackets around no literal, or a NUL
  cases h with
  | name hp =>
    exact absurd (hplain.colon_mem _ _ rfl (hp.notMem (by decide))) (by decide)
  | quad hq hhost hcolon hp => exact hcolon (hplain.colon_mem _ _ rfl (hp.notMem (by decide)))
  | cutQuad hq hcolon hp =>
    exact hplain.noNul (List.mem_append_left _ (List.mem_append_right _ List.mem_cons_self))
  | cutLiteral hx hp =>
    refine hplain.noNul (List.mem_append_left _ (List.mem_cons_of_mem _ ?_))
    exact List.mem_append_left _ (List.mem_append_right _ List.mem_cons_self)

/-- A text is accepted as an endpoint, with this host and this port. -/
def Accepted (s host : List Char) (p : Nat) : Prop :=
  ∃ e, parse? s = some e ∧ e.host = host ∧ e.target.port.toNat = p

theorem Port.exists_toNat {cs : List Char} {p : Nat} (h : Port cs p) :
    ∃ port : UInt16, port.toNat = p :=
  ⟨UInt16.ofNat p, by rw [UInt16.toNat_ofNat', Nat.mod_eq_of_lt (Nat.lt_succ_of_le h.small)]⟩

/-- What is read from a host that is an address, and a port. -/
theorem parse?_enclosed {before cs host : List Char} {port : UInt16} {a : Address}
    (hhost : Enclosed before host) (hp : Port cs port.toNat) (ha : Address.parse? host = some a) :
    parse? (before ++ ':' :: cs) = some ⟨host, ⟨a, port⟩⟩ := by
  refine parse?_eq_some_iff.mpr ⟨before, cs, host, rfl, hp, hhost, (if_neg fun h => ?_).symm, ha⟩
  have hnone : Address.parse? localhost = none := rfl
  rw [h, hnone] at ha
  cases ha

theorem accepted_name {before cs : List Char} {p : Nat} (hhost : Enclosed before localhost)
    (hp : Port cs p) : Accepted (before ++ ':' :: cs) loopback p := by
  obtain ⟨port, rfl⟩ := hp.exists_toNat
  refine ⟨⟨loopback, ⟨.v4 ⟨127, 0, 0, 1⟩, port⟩⟩, parse?_eq_some_iff.mpr ?_, rfl, rfl⟩
  exact ⟨before, cs, localhost, rfl, hp, hhost, (if_pos rfl).symm, rfl⟩

theorem accepted_of_parse? {before cs host : List Char} {p : Nat} {a : Address}
    (hhost : Enclosed before host) (hp : Port cs p) (ha : Address.parse? host = some a) :
    Accepted (before ++ ':' :: cs) host p := by
  obtain ⟨port, rfl⟩ := hp.exists_toNat
  exact ⟨_, parse?_enclosed hhost hp ha, rfl, rfl⟩

theorem accepted_quad {before q cs host : List Char} {ip : IPv4} {p : Nat}
    (hinner : Enclosed before host) (hp : Port cs p) (hq : IPv4.Quad q ip)
    (hhost : Trailed q host) (hcolon : ':' ∉ host) : Accepted (before ++ ':' :: cs) host p :=
  accepted_of_parse? hinner hp
    (Address.parse?_eq_some_iff.mpr (.inl ⟨q, ip, rfl, hq, hhost, hcolon⟩))

theorem accepted_literal {before x cs host : List Char} {ip : IPv6} {p : Nat}
    (hinner : Enclosed before host) (hp : Port cs p) (hx : IPv6.Literal x ip)
    (hhost : Trailed x host) : Accepted (before ++ ':' :: cs) host p :=
  accepted_of_parse? hinner hp (Address.parse?_eq_some_iff.mpr (.inr ⟨x, ip, rfl, hx, hhost⟩))

/-- A dotted quad needs no brackets. -/
theorem enclosed_quad {q host : List Char} {ip : IPv4} (hq : IPv4.Quad q ip)
    (hhost : Trailed q host) (hcolon : ':' ∉ host) : Enclosed host host := by
  obtain ⟨tail, rfl⟩ := hhost.exists_append
  obtain ⟨c, rest, heq, hc⟩ :=
    exists_cons_of_notMem hq.ne_nil (hq.notMem (c := '[') (by decide) (by decide)) tail
  rw [heq] at hcolon ⊢
  exact .bare nofun (fun hhead => hc (Option.some.inj hhead)) hcolon

theorem accepted_of_written {s host : List Char} {p : Nat} (h : Written s host p) :
    Accepted s host p := by
  cases h with
  | name hp => exact accepted_name (.bare (by decide) (by decide) (by decide)) hp
  | quad hq hp =>
    have hcolon := IPv6.colon_notMem_quad hq
    exact accepted_quad (enclosed_quad hq .bare hcolon) hp hq .bare hcolon
  | literal hx hp =>
    exact accepted_literal (.inBrackets (List.ne_nil_of_mem hx.colon_mem)) hp hx .bare

theorem accepted_of_tolerated {s host : List Char} {p : Nat} (h : Tolerated s host p) :
    Accepted s host p := by
  cases h with
  | name hp => exact accepted_name (.inBrackets (by decide)) hp
  | quad hq hhost hcolon hp =>
    obtain ⟨c, hc⟩ := List.exists_mem_of_ne_nil _ hq.ne_nil
    exact accepted_quad (.inBrackets (List.ne_nil_of_mem (hhost.mem hc))) hp hq hhost hcolon
  | @cutQuad q junk cs ip p hq hcolon hp =>
    have hcolon' : ':' ∉ q ++ '\x00' :: junk := by
      rw [List.mem_append, List.mem_cons, not_or, not_or]
      exact ⟨IPv6.colon_notMem_quad hq, by decide, hcolon⟩
    exact accepted_quad (enclosed_quad hq (.behind junk) hcolon') hp hq (.behind junk) hcolon'
  | @cutLiteral x junk cs ip p hx hp =>
    exact accepted_literal (.inBrackets (List.append_ne_nil_of_right_ne_nil _ nofun)) hp hx
      (.behind junk)

theorem written_or_tolerated {s host : List Char} {p : Nat} (h : Accepted s host p) :
    Written s host p ∨ Tolerated s host p := by
  obtain ⟨e, he, rfl, rfl⟩ := h
  obtain ⟨before, cs, host, rfl, hp, hhost, heq, ha⟩ := parse?_eq_some_iff.mp he
  -- the name is replaced before the host is read as a literal
  rcases eq_or_ne host localhost with rfl | hne
  · rw [heq, if_pos rfl]
    cases hhost with
    | inBrackets _ => exact .inr (.name hp)
    | bare _ _ _ => exact .inl (.name hp)
  · rw [if_neg hne] at heq
    rw [heq] at ha ⊢
    obtain ⟨q, ip, -, hq, htrailed, hcolon⟩ | ⟨x, ip, -, hx, htrailed⟩ :=
      Address.parse?_eq_some_iff.mp ha
    · cases hhost with
      | inBrackets _ => exact .inr (.quad hq htrailed hcolon hp)
      | bare _ _ _ =>
        cases htrailed with
        | bare => exact .inl (.quad hq hp)
        | behind junk =>
          exact .inr (.cutQuad hq (fun h => hcolon (List.mem_append_right _
            (List.mem_cons_of_mem _ h))) hp)
    · cases hhost with
      | inBrackets _ =>
        cases htrailed with
        | bare => exact .inl (.literal hx hp)
        | behind junk => exact .inr (.cutLiteral hx hp)
      -- a literal has a colon, which a host without brackets may not
      | bare _ _ hcolon => exact absurd (htrailed.mem hx.colon_mem) hcolon

/-- **Which texts are accepted as endpoints.**  They are those of a documented form, and those
with a host in brackets that is the name of the loopback address or a dotted quad, or with a host
that goes on behind a NUL character.  Among texts without a NUL character in which a host in
brackets has a colon, they are those of a documented form. -/
theorem accepted_iff_written_or_tolerated (s host : List Char) (p : Nat) :
    (Accepted s host p ↔ Written s host p ∨ Tolerated s host p) ∧
      (Plain s → (Accepted s host p ↔ Written s host p)) := by
  have hiff : Accepted s host p ↔ Written s host p ∨ Tolerated s host p :=
    ⟨written_or_tolerated, fun h => h.elim accepted_of_written accepted_of_tolerated⟩
  refine ⟨hiff, fun hplain => hiff.trans ?_⟩
  exact or_iff_left fun h => h.not_plain hplain

/-- **Accepted texts need not be of a documented form:** a dotted quad in brackets, and one with a
NUL character behind it. -/
theorem not_written_of_accepted :
    (Accepted "[127.0.0.1]:80".toList "127.0.0.1".toList 80 ∧
      ¬Written "[127.0.0.1]:80".toList "127.0.0.1".toList 80) ∧
    Accepted "127.0.0.1\x00junk:80".toList "127.0.0.1\x00junk".toList 80 ∧
      ¬Written "127.0.0.1\x00junk:80".toList "127.0.0.1\x00junk".toList 80 := by
  refine ⟨⟨⟨_, rfl, rfl, rfl⟩, fun h => ?_⟩, ⟨_, rfl, rfl, rfl⟩, fun h => ?_⟩
  · exact absurd (h.plain.colon_mem "127.0.0.1".toList "80".toList rfl (by decide)) (by decide)
  · exact absurd h.noNul (by decide)

end Endpoint

end EventLoop

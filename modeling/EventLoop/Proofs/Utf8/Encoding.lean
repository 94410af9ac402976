import EventLoop.Utf8
import Mathlib.Data.List.Forall2
import Mathlib.Data.Set.List

/-!
# Decoding accepts exactly the shortest forms

UTF-8 spells a number in one to four bytes.  A small number can be spelled in
several ways, and only the one with the fewest bytes is its encoding.  Decoding
goes by lead bytes and by the range of the byte after them, and never looks at
the number; that it accepts encodings of scalar values and nothing else is
proved here, character by character and then for whole texts.

## Main definitions

* `Spells bytes n` — the bytes spell `n` by one of the four bit patterns.
* `Encodes bytes n` — no other spelling of `n` has fewer bytes.
* `IsScalar n` — `n` is the number of a character: no surrogate, and at most
  U+10FFFF.

## Main results

* `encodes_iff` — the encoding of a character is what a string holds for it.
* `encode_of_next`, `next_of_encode` — **one character is taken off the front of
  exactly those bytes that begin with its encoding.**
* `decode_eq_ok_iff` — decoding gives a text for exactly the bytes of that text.
* `decode_accepts_encodings` — **the bytes accepted are the concatenations of
  encodings of scalar values.**
-/

namespace EventLoop
namespace Utf8

open String (utf8EncodeChar)

/-! ### Encodings -/

/-- The number of a character. -/
def IsScalar (n : Nat) : Prop := n ≤ 0xD7FF ∨ (0xE000 ≤ n ∧ n ≤ 0x10FFFF)

/-- Bytes that spell a number by a bit pattern of UTF-8, whether or not fewer would do. -/
inductive Spells : List UInt8 → Nat → Prop
  /-- Seven bits in one byte. -/
  | one {n : Nat} {a : UInt8} (hn : n < 0x80) (ha : a.toNat = n) : Spells [a] n
  /-- Eleven bits in two bytes. -/
  | two {n : Nat} {a b : UInt8} (hn : n < 0x800) (ha : a.toNat = 0xC0 + n / 64)
    (hb : b.toNat = 0x80 + n % 64) : Spells [a, b] n
  /-- Sixteen bits in three bytes. -/
  | three {n : Nat} {a b c : UInt8} (hn : n < 0x10000) (ha : a.toNat = 0xE0 + n / 4096)
    (hb : b.toNat = 0x80 + n / 64 % 64) (hc : c.toNat = 0x80 + n % 64) : Spells [a, b, c] n
  /-- Twenty-one bits in four bytes. -/
  | four {n : Nat} {a b c d : UInt8} (hn : n < 0x200000) (ha : a.toNat = 0xF0 + n / 262144)
    (hb : b.toNat = 0x80 + n / 4096 % 64) (hc : c.toNat = 0x80 + n / 64 % 64)
    (hd : d.toNat = 0x80 + n % 64) : Spells [a, b, c, d] n

/-- A spelling with the fewest bytes. -/
structure Encodes (bytes : List UInt8) (n : Nat) : Prop where
  /-- The bytes spell the number. -/
  spells : Spells bytes n
  /-- No spelling is shorter. -/
  shortest : ∀ other, Spells other n → bytes.length ≤ other.length

/-- A number is spelled in one way only with a given number of bytes. -/
theorem Spells.eq_of_length {l l' : List UInt8} {n : Nat} (h : Spells l n) (h' : Spells l' n)
    (hlen : l.length = l'.length) : l = l' := by
  have heq : ∀ {a b : UInt8} {k : Nat}, a.toNat = k → b.toNat = k → a = b :=
    fun ha hb => UInt8.toNat_inj.mp (ha.trans hb.symm)
  cases h with
  | one _ ha =>
    cases h' with
    | one _ ha' => rw [heq ha ha']
    | _ => cases hlen
  | two _ ha hb =>
    cases h' with
    | two _ ha' hb' => rw [heq ha ha', heq hb hb']
    | _ => cases hlen
  | three _ ha hb hc =>
    cases h' with
    | three _ ha' hb' hc' => rw [heq ha ha', heq hb hb', heq hc hc']
    | _ => cases hlen
  | four _ ha hb hc hd =>
    cases h' with
    | four _ ha' hb' hc' hd' => rw [heq ha ha', heq hb hb', heq hc hc', heq hd hd']
    | _ => cases hlen

/-! What fewer bytes can spell. -/

section

variable {l : List UInt8} {n : Nat}

theorem Spells.length_pos (h : Spells l n) : 0 < l.length := by
  cases h <;> exact Nat.succ_pos _

theorem Spells.lt_one (h : Spells l n) (hl : l.length ≤ 1) : n < 0x80 := by
  cases h with
  | one hn _ => exact hn
  | _ => simp only [List.length_cons] at hl; omega

theorem Spells.lt_two (h : Spells l n) (hl : l.length ≤ 2) : n < 0x800 := by
  cases h with
  | one hn _ => omega
  | two hn _ _ => exact hn
  | _ => simp only [List.length_cons] at hl; omega

theorem Spells.lt_three (h : Spells l n) (hl : l.length ≤ 3) : n < 0x10000 := by
  cases h with
  | one hn _ => omega
  | two hn _ _ => omega
  | three hn _ _ _ => exact hn
  | four _ _ _ _ _ => simp only [List.length_cons] at hl; omega

end

/-! ### The encoding of a character -/

/-- A byte that stands for a small number. -/
theorem toNat_ofNat {n : Nat} (h : n < 256) : (UInt8.ofNat n).toNat = n := by
  rw [UInt8.toNat_ofNat', Nat.mod_eq_of_lt h]

/-- The number of a character that has one. -/
theorem toNat_char {n : Nat} (h : n.isValidChar) : (Char.ofNat n).toNat = n := by
  rw [Char.ofNat, dif_pos h]
  rfl

theorem char_eq {x : Char} {n : Nat} (h : n = x.toNat) : Char.ofNat n = x := by
  rw [h, Char.ofNat_toNat]

theorem isScalar_iff {n : Nat} : IsScalar n ↔ ∃ x : Char, x.toNat = n := by
  constructor
  · intro h
    refine ⟨Char.ofNat n, toNat_char ?_⟩
    rcases h with h | ⟨h, h'⟩
    · exact Or.inl (by omega)
    · exact Or.inr ⟨by omega, by omega⟩
  · rintro ⟨x, rfl⟩
    have hx : x.toNat.isValidChar := x.valid
    rcases hx with h | ⟨h, h'⟩
    · exact Or.inl (by omega)
    · exact Or.inr ⟨by omega, by omega⟩

variable {a b c d : UInt8} {x : Char} {rest tail : List UInt8}

theorem encode_one (h : x.toNat < 0x80) :
    ∃ a, utf8EncodeChar x = [a] ∧ a.toNat = x.toNat := by
  refine ⟨UInt8.ofNat x.toNat, ?_, toNat_ofNat (by omega)⟩
  show (if x.toNat ≤ 127 then _ else _) = _
  rw [if_pos (by omega)]
  rfl

theorem encode_two (h : 0x80 ≤ x.toNat) (h' : x.toNat < 0x800) :
    ∃ a b, utf8EncodeChar x = [a, b] ∧ a.toNat = 0xC0 + x.toNat / 64 ∧
      b.toNat = 0x80 + x.toNat % 64 := by
  refine ⟨UInt8.ofNat (0xC0 + x.toNat / 64), UInt8.ofNat (0x80 + x.toNat % 64), ?_,
    toNat_ofNat (by omega), toNat_ofNat (by omega)⟩
  show (if x.toNat ≤ 127 then _ else if x.toNat ≤ 2047 then
    [UInt8.ofNat (x.toNat / 64 % 32 + 192), UInt8.ofNat (x.toNat % 64 + 128)] else _) = _
  rw [if_neg (by omega), if_pos (by omega), Nat.mod_eq_of_lt (a := x.toNat / 64) (by omega)]
  simp only [Nat.add_comm]

theorem encode_three (h : 0x800 ≤ x.toNat) (h' : x.toNat < 0x10000) :
    ∃ a b c, utf8EncodeChar x = [a, b, c] ∧ a.toNat = 0xE0 + x.toNat / 4096 ∧
      b.toNat = 0x80 + x.toNat / 64 % 64 ∧ c.toNat = 0x80 + x.toNat % 64 := by
  refine ⟨UInt8.ofNat (0xE0 + x.toNat / 4096), UInt8.ofNat (0x80 + x.toNat / 64 % 64),
    UInt8.ofNat (0x80 + x.toNat % 64), ?_, toNat_ofNat (by omega), toNat_ofNat (by omega),
    toNat_ofNat (by omega)⟩
  show (if x.toNat ≤ 127 then _ else if x.toNat ≤ 2047 then _ else if x.toNat ≤ 65535 then
    [UInt8.ofNat (x.toNat / 4096 % 16 + 224), UInt8.ofNat (x.toNat / 64 % 64 + 128),
      UInt8.ofNat (x.toNat % 64 + 128)] else _) = _
  rw [if_neg (by omega), if_neg (by omega), if_pos (by omega),
    Nat.mod_eq_of_lt (a := x.toNat / 4096) (by omega)]
  simp only [Nat.add_comm]

theorem encode_four (h : 0x10000 ≤ x.toNat) :
    ∃ a b c d, utf8EncodeChar x = [a, b, c, d] ∧ a.toNat = 0xF0 + x.toNat / 262144 ∧
      b.toNat = 0x80 + x.toNat / 4096 % 64 ∧ c.toNat = 0x80 + x.toNat / 64 % 64 ∧
      d.toNat = 0x80 + x.toNat % 64 := by
  have hx : x.toNat.isValidChar := x.valid
  refine ⟨UInt8.ofNat (0xF0 + x.toNat / 262144), UInt8.ofNat (0x80 + x.toNat / 4096 % 64),
    UInt8.ofNat (0x80 + x.toNat / 64 % 64), UInt8.ofNat (0x80 + x.toNat % 64), ?_,
    toNat_ofNat (by omega), toNat_ofNat (by omega), toNat_ofNat (by omega), toNat_ofNat (by omega)⟩
  show (if x.toNat ≤ 127 then _ else if x.toNat ≤ 2047 then _ else if x.toNat ≤ 65535 then _ else
    [UInt8.ofNat (x.toNat / 262144 % 8 + 240), UInt8.ofNat (x.toNat / 4096 % 64 + 128),
      UInt8.ofNat (x.toNat / 64 % 64 + 128), UInt8.ofNat (x.toNat % 64 + 128)]) = _
  rw [if_neg (by omega), if_neg (by omega), if_neg (by omega),
    Nat.mod_eq_of_lt (a := x.toNat / 262144) (by omega)]
  simp only [Nat.add_comm]

/-- What a string holds for a character spells its number, and no spelling is shorter. -/
theorem encodes_encode (x : Char) : Encodes (utf8EncodeChar x) x.toNat := by
  have hx : x.toNat.isValidChar := x.valid
  -- a number past the reach of fewer bytes has no spelling with fewer
  rcases Nat.lt_or_ge x.toNat 0x80 with h₁ | h₁
  · obtain ⟨a, he, ha⟩ := encode_one h₁
    rw [he]
    refine ⟨.one h₁ ha, fun other ho => ?_⟩
    exact ho.length_pos
  rcases Nat.lt_or_ge x.toNat 0x800 with h₂ | h₂
  · obtain ⟨a, b, he, ha, hb⟩ := encode_two h₁ h₂
    rw [he]
    refine ⟨.two h₂ ha hb, fun other ho => ?_⟩
    by_contra hlt
    exact absurd (ho.lt_one (Nat.not_lt.mp hlt)) (by omega)
  rcases Nat.lt_or_ge x.toNat 0x10000 with h₃ | h₃
  · obtain ⟨a, b, c, he, ha, hb, hc⟩ := encode_three h₂ h₃
    rw [he]
    refine ⟨.three h₃ ha hb hc, fun other ho => ?_⟩
    by_contra hlt
    exact absurd (ho.lt_two (Nat.not_lt.mp hlt)) (by omega)
  · obtain ⟨a, b, c, d, he, ha, hb, hc, hd⟩ := encode_four h₃
    rw [he]
    refine ⟨.four (by omega) ha hb hc hd, fun other ho => ?_⟩
    by_contra hlt
    exact absurd (ho.lt_three (Nat.not_lt.mp hlt)) (by omega)

/-- **The encoding of a character is what a string holds for it.** -/
theorem encodes_iff {bytes : List UInt8} :
    Encodes bytes x.toNat ↔ bytes = utf8EncodeChar x := by
  constructor
  · intro h
    have hself := encodes_encode x
    have hlen : bytes.length = (utf8EncodeChar x).length :=
      Nat.le_antisymm (h.shortest _ hself.spells) (hself.shortest _ h.spells)
    exact h.spells.eq_of_length hself.spells hlen
  · rintro rfl
    exact encodes_encode x

/-! ### Lead bytes and the bytes after them -/

/-- The least lead byte of the sequences of a length. -/
def Width.least : Width → Nat
  | .one => 0
  | .two => 0xC2
  | .three => 0xE0
  | .four => 0xF0

/-- The greatest lead byte of the sequences of a length. -/
def Width.greatest : Width → Nat
  | .one => 0x7F
  | .two => 0xDF
  | .three => 0xEF
  | .four => 0xF4

theorem width?_eq_some_iff {a : UInt8} {w : Width} :
    width? a = some w ↔ w.least ≤ a.toNat ∧ a.toNat ≤ w.greatest := by
  simp only [width?, UInt8.lt_iff_toNat_lt, UInt8.le_iff_toNat_le, Bool.and_eq_true,
    decide_eq_true_eq, UInt8.reduceToNat]
  cases w <;> simp only [Width.least, Width.greatest] <;> split_ifs <;> simp <;> omega

theorem isContinuation_iff {b : UInt8} :
    isContinuation b = true ↔ 0x80 ≤ b.toNat ∧ b.toNat ≤ 0xBF := by
  simp [isContinuation, UInt8.le_iff_toNat_le]

theorem mayFollow_iff {a b : UInt8} : mayFollow a b = true ↔
    (0x80 ≤ b.toNat ∧ b.toNat ≤ 0xBF) ∧ (a.toNat = 0xE0 → 0xA0 ≤ b.toNat) ∧
      (a.toNat = 0xED → b.toNat ≤ 0x9F) ∧ (a.toNat = 0xF0 → 0x90 ≤ b.toNat) ∧
      (a.toNat = 0xF4 → b.toNat ≤ 0x8F) := by
  have hlead : ∀ k : UInt8, a = k ↔ a.toNat = k.toNat := fun k => UInt8.toNat_inj.symm
  simp only [mayFollow, hlead, UInt8.reduceToNat, UInt8.le_iff_toNat_le, isContinuation]
  split
  · simp only [Bool.and_eq_true, decide_eq_true_eq]; omega
  · split
    · simp only [Bool.and_eq_true, decide_eq_true_eq]; omega
    · split
      · simp only [Bool.and_eq_true, decide_eq_true_eq]; omega
      · split <;> simp only [Bool.and_eq_true, decide_eq_true_eq] <;> omega

theorem encode_scalar₂ (ha : 0xC2 ≤ a.toNat ∧ a.toNat ≤ 0xDF) (hb : mayFollow a b = true) :
    utf8EncodeChar (scalar₂ a b) = [a, b] := by
  obtain ⟨hb, -⟩ := mayFollow_iff.mp hb
  have hn : (scalar₂ a b).toNat = (a.toNat - 0xC0) * 64 + (b.toNat - 0x80) :=
    toNat_char (Or.inl (by omega))
  obtain ⟨a', b', he, ha', hb'⟩ := encode_two (x := scalar₂ a b) (by omega) (by omega)
  have haa : a' = a := UInt8.toNat_inj.mp (by omega)
  have hbb : b' = b := UInt8.toNat_inj.mp (by omega)
  rw [he, haa, hbb]

theorem encode_scalar₃ (ha : 0xE0 ≤ a.toNat ∧ a.toNat ≤ 0xEF) (hb : mayFollow a b = true)
    (hc : isContinuation c = true) : utf8EncodeChar (scalar₃ a b c) = [a, b, c] := by
  obtain ⟨hb, hoverlong, hsurrogate, -⟩ := mayFollow_iff.mp hb
  rw [isContinuation_iff] at hc
  -- the second byte excludes the surrogates, so that the number is a character
  have hn : (scalar₃ a b c).toNat
      = (a.toNat - 0xE0) * 4096 + (b.toNat - 0x80) * 64 + (c.toNat - 0x80) := by
    refine toNat_char ?_
    by_cases hED : a.toNat ≤ 0xED
    · exact Or.inl (by omega)
    · exact Or.inr ⟨by omega, by omega⟩
  obtain ⟨a', b', c', he, ha', hb', hc'⟩ :=
    encode_three (x := scalar₃ a b c) (by omega) (by omega)
  have haa : a' = a := UInt8.toNat_inj.mp (by omega)
  have hbb : b' = b := UInt8.toNat_inj.mp (by omega)
  have hcc : c' = c := UInt8.toNat_inj.mp (by omega)
  rw [he, haa, hbb, hcc]

theorem encode_scalar₄ (ha : 0xF0 ≤ a.toNat ∧ a.toNat ≤ 0xF4) (hb : mayFollow a b = true)
    (hc : isContinuation c = true) (hd : isContinuation d = true) :
    utf8EncodeChar (scalar₄ a b c d) = [a, b, c, d] := by
  obtain ⟨hb, -, -, hoverlong, hlimit⟩ := mayFollow_iff.mp hb
  rw [isContinuation_iff] at hc hd
  -- the second byte keeps the number below the limit of characters
  have hn : (scalar₄ a b c d).toNat = (a.toNat - 0xF0) * 262144 + (b.toNat - 0x80) * 4096
      + (c.toNat - 0x80) * 64 + (d.toNat - 0x80) :=
    toNat_char (Or.inr ⟨by omega, by omega⟩)
  obtain ⟨a', b', c', d', he, ha', hb', hc', hd'⟩ := encode_four (x := scalar₄ a b c d) (by omega)
  have haa : a' = a := UInt8.toNat_inj.mp (by omega)
  have hbb : b' = b := UInt8.toNat_inj.mp (by omega)
  have hcc : c' = c := UInt8.toNat_inj.mp (by omega)
  have hdd : d' = d := UInt8.toNat_inj.mp (by omega)
  rw [he, haa, hbb, hcc, hdd]

/-- What `next` takes off the front is one character in UTF-8. -/
theorem encode_of_next {lead : UInt8} (h : next lead rest = .ok (x, tail)) :
    lead :: rest = utf8EncodeChar x ++ tail := by
  unfold next at h
  split at h
  · cases h
  · next hw =>
    have hlead : 0 ≤ lead.toNat ∧ lead.toNat ≤ 0x7F := width?_eq_some_iff.mp hw
    obtain ⟨rfl, rfl⟩ := Prod.mk.inj (Except.ok.inj h)
    have hn : (Char.ofNat lead.toNat).toNat = lead.toNat := toNat_char (Or.inl (by omega))
    obtain ⟨a, he, ha⟩ := encode_one (x := Char.ofNat lead.toNat) (by omega)
    rw [he, UInt8.toNat_inj.mp (ha.trans hn)]
    rfl
  · next hw =>
    split at h
    · split at h
      · next hb =>
        obtain ⟨rfl, rfl⟩ := Prod.mk.inj (Except.ok.inj h)
        rw [encode_scalar₂ (width?_eq_some_iff.mp hw) hb]
        rfl
      · cases h
    · cases h
  · next hw =>
    split at h
    · split at h
      · next hall =>
        obtain ⟨rfl, rfl⟩ := Prod.mk.inj (Except.ok.inj h)
        obtain ⟨hb, hc⟩ := Bool.and_eq_true_iff.mp hall
        rw [encode_scalar₃ (width?_eq_some_iff.mp hw) hb hc]
        rfl
      · cases h
    · cases h
  · next hw =>
    split at h
    · split at h
      · next hall =>
        obtain ⟨rfl, rfl⟩ := Prod.mk.inj (Except.ok.inj h)
        obtain ⟨hbc, hd⟩ := Bool.and_eq_true_iff.mp hall
        obtain ⟨hb, hc⟩ := Bool.and_eq_true_iff.mp hbc
        rw [encode_scalar₄ (width?_eq_some_iff.mp hw) hb hc hd]
        rfl
      · cases h
    · cases h

/-- A character in UTF-8 is taken off the front of what begins with it. -/
theorem next_of_encode {lead : UInt8} (h : lead :: rest = utf8EncodeChar x ++ tail) :
    next lead rest = .ok (x, tail) := by
  have hx : x.toNat.isValidChar := x.valid
  -- by length: the lead byte tells it, and the second byte rules out what would be shorter
  rcases Nat.lt_or_ge x.toNat 0x80 with h₁ | h₁
  · obtain ⟨a, he, ha⟩ := encode_one h₁
    rw [he] at h
    obtain ⟨rfl, rfl⟩ := List.cons.inj h
    have hw : width? lead = some .one := width?_eq_some_iff.mpr ⟨Nat.zero_le _, by
      show lead.toNat ≤ 0x7F
      omega⟩
    unfold next
    rw [hw]
    dsimp only
    rw [char_eq ha]
  rcases Nat.lt_or_ge x.toNat 0x800 with h₂ | h₂
  · obtain ⟨a, b, he, ha, hb⟩ := encode_two h₁ h₂
    rw [he] at h
    obtain ⟨rfl, rfl⟩ := List.cons.inj h
    have hw : width? lead = some .two := width?_eq_some_iff.mpr (by
      show 0xC2 ≤ lead.toNat ∧ lead.toNat ≤ 0xDF
      omega)
    have hfollow : mayFollow lead b = true := mayFollow_iff.mpr (by omega)
    have hval : scalar₂ lead b = x := char_eq (by omega)
    show next lead (b :: tail) = _
    unfold next
    rw [hw]
    dsimp only
    rw [if_pos hfollow, hval]
  rcases Nat.lt_or_ge x.toNat 0x10000 with h₃ | h₃
  · obtain ⟨a, b, c, he, ha, hb, hc⟩ := encode_three h₂ h₃
    rw [he] at h
    obtain ⟨rfl, rfl⟩ := List.cons.inj h
    have hw : width? lead = some .three := width?_eq_some_iff.mpr (by
      show 0xE0 ≤ lead.toNat ∧ lead.toNat ≤ 0xEF
      omega)
    have hfollow : mayFollow lead b = true := mayFollow_iff.mpr (by omega)
    have hthird : isContinuation c = true := isContinuation_iff.mpr (by omega)
    have hval : scalar₃ lead b c = x := char_eq (by omega)
    show next lead (b :: c :: tail) = _
    unfold next
    rw [hw]
    dsimp only
    rw [hfollow, hthird, hval]
    rfl
  · obtain ⟨a, b, c, d, he, ha, hb, hc, hd⟩ := encode_four h₃
    rw [he] at h
    obtain ⟨rfl, rfl⟩ := List.cons.inj h
    have hw : width? lead = some .four := width?_eq_some_iff.mpr (by
      show 0xF0 ≤ lead.toNat ∧ lead.toNat ≤ 0xF4
      omega)
    have hfollow : mayFollow lead b = true := mayFollow_iff.mpr (by omega)
    have hthird : isContinuation c = true := isContinuation_iff.mpr (by omega)
    have hfourth : isContinuation d = true := isContinuation_iff.mpr (by omega)
    have hval : scalar₄ lead b c d = x := char_eq (by omega)
    show next lead (b :: c :: d :: tail) = _
    unfold next
    rw [hw]
    dsimp only
    rw [hfollow, hthird, hfourth, hval]
    rfl

/-! ### Whole texts -/

theorem decodeFrom_nil (offset : Nat) (done : List Char) :
    decodeFrom offset done [] = .ok done.reverse := by
  rw [decodeFrom]

theorem decodeFrom_ok (offset : Nat) (done : List Char) {lead : UInt8}
    (h : next lead rest = .ok (x, tail)) : decodeFrom offset done (lead :: rest)
      = decodeFrom (offset + x.utf8Size) (x :: done) tail := by
  rw [decodeFrom]
  split
  · next fault hf => rw [h] at hf; cases hf
  · next c tail' hc => rw [h] at hc; cases hc; rfl

theorem decodeFrom_error (offset : Nat) (done : List Char) {lead : UInt8} {fault : Fault}
    (h : next lead rest = .error fault) :
    decodeFrom offset done (lead :: rest) = .error ⟨fault, offset⟩ := by
  rw [decodeFrom]
  split
  · next fault' hf => rw [h] at hf; cases hf; rfl
  · next c tail' hc => rw [h] at hc; cases hc

theorem decodeFrom_encode (xs : List Char) : ∀ (offset : Nat) (done : List Char),
    decodeFrom offset done (xs.flatMap utf8EncodeChar) = .ok (done.reverse ++ xs) := by
  -- on the characters: each is decoded off the front, whatever follows it
  induction xs with
  | nil =>
    intro offset done
    rw [List.flatMap_nil, decodeFrom_nil, List.append_nil]
  | cons x xs ih =>
    intro offset done
    rw [List.flatMap_cons]
    cases hbytes : utf8EncodeChar x ++ xs.flatMap utf8EncodeChar with
    | nil => exact absurd (List.append_eq_nil_iff.mp hbytes).1 String.utf8EncodeChar_ne_nil
    | cons lead rest =>
      rw [decodeFrom_ok offset done (next_of_encode hbytes.symm), ih, List.reverse_cons,
        List.append_assoc]
      rfl

theorem encode_of_decodeFrom (offset : Nat) (done : List Char) (bytes : List UInt8) :
    ∀ text, decodeFrom offset done bytes = .ok text →
      ∃ xs, text = done.reverse ++ xs ∧ bytes = xs.flatMap utf8EncodeChar := by
  -- on the calls of the decoder
  induction offset, done, bytes using decodeFrom.induct with
  | case1 offset done =>
    intro text h
    rw [decodeFrom_nil] at h
    exact ⟨[], by rw [List.append_nil, Except.ok.inj h], rfl⟩
  | case2 offset done lead rest fault hfault =>
    intro text h
    rw [decodeFrom_error offset done hfault] at h
    cases h
  | case3 offset done lead rest x tail hnext ih =>
    intro text h
    rw [decodeFrom_ok offset done hnext] at h
    obtain ⟨xs, rfl, rfl⟩ := ih text h
    refine ⟨x :: xs, ?_, ?_⟩
    · rw [List.reverse_cons, List.append_assoc]
      rfl
    · rw [List.flatMap_cons]
      exact encode_of_next hnext

/-- Decoding gives a text for exactly the bytes of that text. -/
theorem decode_eq_ok_iff {bytes : List UInt8} {s : String} :
    decode bytes = .ok s ↔ bytes = s.toList.flatMap utf8EncodeChar := by
  constructor
  · intro h
    unfold decode at h
    cases hd : decodeFrom 0 [] bytes with
    | error defect =>
      rw [hd] at h
      cases h
    | ok text =>
      rw [hd] at h
      obtain ⟨xs, rfl, rfl⟩ := encode_of_decodeFrom 0 [] bytes text hd
      rw [← Except.ok.inj h, String.toList_ofList]
  · rintro rfl
    rw [decode, decodeFrom_encode]
    show Except.ok (String.ofList s.toList) = _
    rw [String.ofList_toList]

/-- The bytes of a text. -/
theorem bytes_eq (s : String) : s.toUTF8.data.toList = s.toList.flatMap utf8EncodeChar := by
  have h : s.toByteArray = s.toList.utf8Encode := by
    conv_lhs => rw [← String.ofList_toList (s := s), String.toByteArray_ofList]
  show s.toByteArray.data.toList = _
  rw [h, List.utf8Encode, List.data_toByteArray]

theorem forall₂_encodes_iff {parts : List (List UInt8)} {xs : List Char} :
    List.Forall₂ (fun part x => Encodes part x.toNat) parts xs ↔
      parts = xs.map utf8EncodeChar := by
  simp only [encodes_iff]
  rw [← List.forall₂_map_right_iff, List.forall₂_eq_eq_eq]

/-- Parts that encode a number each encode a list of characters. -/
theorem exists_map_encode {parts : List (List UInt8)}
    (h : ∀ part ∈ parts, ∃ n, IsScalar n ∧ Encodes part n) :
    ∃ xs : List Char, parts = xs.map utf8EncodeChar := by
  have hrange : parts ∈ Set.range (List.map utf8EncodeChar) := by
    rw [Set.range_list_map]
    intro part hpart
    obtain ⟨n, hn, he⟩ := h part hpart
    obtain ⟨x, rfl⟩ := isScalar_iff.mp hn
    exact ⟨x, (encodes_iff.mp he).symm⟩
  obtain ⟨xs, hxs⟩ := hrange
  exact ⟨xs, hxs.symm⟩

/-- **The bytes accepted are the concatenations of encodings of scalar values**, and the text
they give has just these bytes: the encodings of every list of characters are accepted as that
list, and nothing else is. -/
theorem decode_accepts_encodings (bytes : List UInt8) :
    ((∃ s, decode bytes = .ok s) ↔ ∃ parts : List (List UInt8),
      bytes = parts.flatten ∧ ∀ part ∈ parts, ∃ n, IsScalar n ∧ Encodes part n) ∧
    (∀ s, decode bytes = .ok s → s.toUTF8.data.toList = bytes) ∧
    ∀ xs : List Char, decode bytes = .ok (String.ofList xs) ↔ ∃ parts,
      bytes = parts.flatten ∧ List.Forall₂ (fun part x => Encodes part x.toNat) parts xs := by
  refine ⟨⟨?_, ?_⟩, fun s hs => ?_, fun xs => ?_⟩
  · rintro ⟨s, hs⟩
    refine ⟨s.toList.map utf8EncodeChar, ?_, ?_⟩
    · rw [← List.flatMap_def]
      exact decode_eq_ok_iff.mp hs
    · intro part hpart
      obtain ⟨x, -, rfl⟩ := List.mem_map.mp hpart
      exact ⟨x.toNat, isScalar_iff.mpr ⟨x, rfl⟩, encodes_iff.mpr rfl⟩
  · rintro ⟨parts, rfl, hparts⟩
    obtain ⟨xs, rfl⟩ := exists_map_encode hparts
    refine ⟨String.ofList xs, decode_eq_ok_iff.mpr ?_⟩
    rw [String.toList_ofList, List.flatMap_def]
  · rw [bytes_eq, decode_eq_ok_iff.mp hs]
  · rw [decode_eq_ok_iff, String.toList_ofList, List.flatMap_def]
    simp only [forall₂_encodes_iff, exists_eq_right]

end Utf8
end EventLoop

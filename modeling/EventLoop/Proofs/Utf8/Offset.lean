import EventLoop.Proofs.Utf8.Encoding
import EventLoop.Tree.Decode
import Mathlib.Algebra.Order.Ring.Int
import Mathlib.Order.Bounds.Defs

/-!
# Where a text breaks off

Bytes that are no text are refused with the offset of a sequence.  Whatever is wrong
with it, up to that sequence the bytes are text, and they are so no further.  What
stands before some bytes as text is read over: the offset moves by its length, and
nothing else changes.

## Main definitions

* `IsText bytes` — the bytes are encodings of scalar values, one after the other.

## Main results

* `decodeFrom_append` — reading goes over text.
* `decode_eq_error_iff` — a refusal names the place at which text ends and no character
  follows.
* `decodeText_error_spec` — **the offset is the length of the longest start that is text**,
  also in the report of the failure.
-/

namespace EventLoop
namespace Utf8

open String (utf8EncodeChar)

/-- Bytes that are encodings of scalar values, one after the other. -/
def IsText (bytes : List UInt8) : Prop :=
  ∃ parts : List (List UInt8), bytes = parts.flatten ∧
    ∀ part ∈ parts, ∃ n, IsScalar n ∧ Encodes part n

theorem isText_iff {bytes : List UInt8} :
    IsText bytes ↔ ∃ xs : List Char, bytes = xs.flatMap utf8EncodeChar := by
  constructor
  · rintro ⟨parts, rfl, hparts⟩
    obtain ⟨xs, rfl⟩ := exists_map_encode hparts
    exact ⟨xs, List.flatMap_def.symm⟩
  · rintro ⟨xs, rfl⟩
    refine ⟨xs.map utf8EncodeChar, List.flatMap_def, fun part hpart => ?_⟩
    obtain ⟨x, -, rfl⟩ := List.mem_map.mp hpart
    exact ⟨x.toNat, isScalar_iff.mpr ⟨x, rfl⟩, encodes_iff.mpr rfl⟩

/-! ### Reading over text -/

variable {bytes : List UInt8}

/-- Reading goes over text, and the offset grows by its length. -/
theorem decodeFrom_append (xs : List Char) : ∀ (offset : Nat) (done : List Char),
    decodeFrom offset done (xs.flatMap utf8EncodeChar ++ bytes)
      = decodeFrom (offset + (xs.flatMap utf8EncodeChar).length) (xs.reverse ++ done) bytes := by
  -- on the characters of the text in front
  induction xs with
  | nil => exact fun _ _ => rfl
  | cons x xs ih =>
    intro offset done
    rw [List.flatMap_cons, List.append_assoc]
    cases hbytes : utf8EncodeChar x ++ (xs.flatMap utf8EncodeChar ++ bytes) with
    | nil => exact absurd (List.append_eq_nil_iff.mp hbytes).1 String.utf8EncodeChar_ne_nil
    | cons lead rest =>
      rw [decodeFrom_ok offset done (next_of_encode hbytes.symm), ih, List.length_append,
        String.length_utf8EncodeChar, Nat.add_assoc, List.reverse_cons, List.append_assoc]
      rfl

/-- A refusal comes after some text, where no character can be taken off. -/
theorem exists_of_decodeFrom_error (offset : Nat) (done : List Char) (bytes : List UInt8) :
    ∀ defect, decodeFrom offset done bytes = .error defect →
      ∃ (xs : List Char) (lead : UInt8) (rest : List UInt8),
      bytes = xs.flatMap utf8EncodeChar ++ lead :: rest ∧
      defect.offset = offset + (xs.flatMap utf8EncodeChar).length ∧
      next lead rest = .error defect.fault := by
  -- on the calls: the one that fails stands behind the characters decoded so far
  induction offset, done, bytes using decodeFrom.induct with
  | case1 offset done =>
    intro defect h
    rw [decodeFrom_nil] at h
    cases h
  | case2 offset done lead rest fault hfault =>
    intro defect h
    rw [decodeFrom_error offset done hfault] at h
    cases h
    exact ⟨[], lead, rest, rfl, rfl, hfault⟩
  | case3 offset done lead rest x tail hnext ih =>
    intro defect h
    rw [decodeFrom_ok offset done hnext] at h
    obtain ⟨xs, lead', rest', rfl, hoffset, hfault⟩ := ih defect h
    refine ⟨x :: xs, lead', rest', ?_, ?_, hfault⟩
    · rw [encode_of_next hnext, List.flatMap_cons, List.append_assoc]
    · rw [hoffset, List.flatMap_cons, List.length_append, String.length_utf8EncodeChar,
        Nat.add_assoc]

/-- **A refusal names the place at which text ends and no character follows.** -/
theorem decode_eq_error_iff {defect : Defect} :
    decode bytes = .error defect ↔ ∃ (xs : List Char) (lead : UInt8) (rest : List UInt8),
      bytes = xs.flatMap utf8EncodeChar ++ lead :: rest ∧
      defect.offset = (xs.flatMap utf8EncodeChar).length ∧
      next lead rest = .error defect.fault := by
  -- an error is passed on as it is
  have hmap : decode bytes = .error defect ↔ decodeFrom 0 [] bytes = .error defect := by
    unfold decode
    cases decodeFrom 0 [] bytes with
    | ok text => exact ⟨nofun, nofun⟩
    | error d => rw [Except.map, Except.error.injEq, Except.error.injEq]
  rw [hmap]
  constructor
  · intro h
    obtain ⟨xs, lead, rest, hbytes, hoffset, hfault⟩ := exists_of_decodeFrom_error 0 [] _ _ h
    exact ⟨xs, lead, rest, hbytes, hoffset.trans (Nat.zero_add _), hfault⟩
  · rintro ⟨xs, lead, rest, rfl, hoffset, hfault⟩
    rw [decodeFrom_append, decodeFrom_error _ _ hfault, Nat.zero_add, ← hoffset]

/-- Text in front of some bytes moves the place at which they are refused. -/
theorem decode_append {text : List UInt8} {defect : Defect} (htext : IsText text)
    (h : decode bytes = .error defect) :
    decode (text ++ bytes) = .error ⟨defect.fault, text.length + defect.offset⟩ := by
  obtain ⟨ys, rfl⟩ := isText_iff.mp htext
  obtain ⟨xs, lead, rest, rfl, hoffset, hfault⟩ := decode_eq_error_iff.mp h
  refine decode_eq_error_iff.mpr ⟨ys ++ xs, lead, rest, ?_, ?_, hfault⟩
  · rw [List.flatMap_append, List.append_assoc]
  · rw [List.flatMap_append, List.length_append, hoffset]

/-- Text at the front is read over before anything is refused. -/
theorem length_le_offset {front : List UInt8} {defect : Defect} (hfront : front <+: bytes)
    (htext : IsText front) (h : decode bytes = .error defect) : front.length ≤ defect.offset := by
  obtain ⟨tail, rfl⟩ := hfront
  cases htail : decode tail with
  | error d =>
    rw [decode_append htext htail, Except.error.injEq] at h
    rw [← h]
    exact Nat.le_add_right _ _
  | ok s =>
    -- text followed by text is text, which is not refused
    obtain ⟨ys, rfl⟩ := isText_iff.mp htext
    rw [decode_eq_ok_iff.mp htail, ← List.flatMap_append] at h
    have hok : decode ((ys ++ s.toList).flatMap utf8EncodeChar)
        = .ok (String.ofList (ys ++ s.toList)) := by
      rw [decode_eq_ok_iff, String.toList_ofList]
    rw [hok] at h
    cases h

/-- **Bytes are refused where the longest start that is text ends.** -/
theorem isGreatest_offset {defect : Defect} (h : decode bytes = .error defect) :
    IsGreatest {n | ∃ front, front <+: bytes ∧ IsText front ∧ front.length = n} defect.offset := by
  refine ⟨?_, ?_⟩
  · obtain ⟨xs, lead, rest, rfl, hoffset, -⟩ := decode_eq_error_iff.mp h
    exact ⟨_, List.prefix_append _ _, isText_iff.mpr ⟨xs, rfl⟩, hoffset.symm⟩
  · rintro n ⟨front, hfront, htext, rfl⟩
    exact length_le_offset hfront htext h

/-- What is refused begins with no character. -/
theorem not_encodes_drop_offset {defect : Defect} (h : decode bytes = .error defect) :
    (∃ s, decode (bytes.take defect.offset) = .ok s) ∧ defect.offset < bytes.length ∧
      ∀ part n, IsScalar n → Encodes part n → ¬part <+: bytes.drop defect.offset := by
  obtain ⟨xs, lead, rest, rfl, hoffset, hfault⟩ := decode_eq_error_iff.mp h
  rw [hoffset, List.take_left, List.drop_left, List.length_append]
  refine ⟨⟨String.ofList xs, ?_⟩, Nat.lt_add_of_pos_right (Nat.succ_pos _), ?_⟩
  · rw [decode_eq_ok_iff, String.toList_ofList]
  · rintro part n hn hpart ⟨tail, htail⟩
    obtain ⟨x, rfl⟩ := isScalar_iff.mp hn
    rw [encodes_iff.mp hpart] at htail
    rw [next_of_encode htail.symm] at hfault
    cases hfault

/-! ### The failure -/

/-- **Where bytes are refused.**  The failure is one of UTF-8, its message ends with an offset and
its code is the same number, as far as it fits.  The offset is the length of the longest start of
the bytes that is text: what stands before it reads as text, something stands behind it, and no
encoding of a character begins there.  With text in front, the bytes are refused for the same
fault, and the offset is more by the length of that text. -/
theorem decodeText_error_spec {failure : Failure} (h : decodeText bytes = .error failure) :
    ∃ defect : Defect, failure = .badText defect ∧ failure.report.kind = .utf8 ∧
      failure.report.message = defect.fault.text ++ " at offset " ++ toString defect.offset ∧
      failure.report.code = min (defect.offset : Int) (2 ^ 31 - 1) ∧
      IsGreatest {n | ∃ front, front <+: bytes ∧ IsText front ∧ front.length = n} defect.offset ∧
      (∃ s, decodeText (bytes.take defect.offset) = .ok s) ∧ defect.offset < bytes.length ∧
      (∀ part n, IsScalar n → Encodes part n → ¬part <+: bytes.drop defect.offset) ∧
      ∀ text, IsText text → decodeText (text ++ bytes)
        = .error (.badText ⟨defect.fault, text.length + defect.offset⟩) := by
  unfold decodeText at h
  cases hd : decode bytes with
  | ok s =>
    rw [hd] at h
    cases h
  | error defect =>
    rw [hd] at h
    obtain rfl := Except.error.inj h
    obtain ⟨⟨s, hs⟩, hlt, hpart⟩ := not_encodes_drop_offset hd
    refine ⟨defect, rfl, rfl, rfl, rfl, isGreatest_offset hd, ⟨s, ?_⟩, hlt, hpart,
      fun text htext => ?_⟩
    · rw [decodeText, hs]
    · rw [decodeText, decode_append htext hd]

/-- Two characters and the first two bytes of a third, and the same with one more character in
front. -/
theorem decodeText_error_spec_cut :
    decodeText [0x41, 0xC3, 0xA9, 0xE2, 0x82] = .error (.badText ⟨.truncated, 3⟩) ∧
      IsGreatest {n | ∃ front, front <+: [0x41, 0xC3, 0xA9, 0xE2, 0x82] ∧ IsText front ∧
        front.length = n} 3 ∧
      IsText [0xC3, 0xA9] ∧ decodeText ([0xC3, 0xA9] ++ [0x41, 0xC3, 0xA9, 0xE2, 0x82])
        = .error (.badText ⟨.truncated, 5⟩) := by
  have hd : decode [0x41, 0xC3, 0xA9, 0xE2, 0x82] = .error ⟨.truncated, 3⟩ :=
    decode_eq_error_iff.mpr ⟨['A', 'é'], 0xE2, [0x82], by decide, by decide, by decide⟩
  have h : decodeText [0x41, 0xC3, 0xA9, 0xE2, 0x82] = .error (.badText ⟨.truncated, 3⟩) := by
    rw [decodeText, hd]
  have htext : IsText [0xC3, 0xA9] := isText_iff.mpr ⟨['é'], by decide⟩
  obtain ⟨defect, hdefect, -, -, -, hgreatest, -, -, -, hshift⟩ := decodeText_error_spec h
  obtain rfl := Failure.badText.inj hdefect
  exact ⟨h, hgreatest, htext, hshift _ htext⟩

end Utf8
end EventLoop

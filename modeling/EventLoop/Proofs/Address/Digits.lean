import EventLoop.Address.Digits
import Mathlib.Data.List.Induction
import Mathlib.Tactic.IntervalCases

/-!
# Numerals and fields

What the pieces of an address are, said without the functions that read them: a
numeral is a digit, or a numeral with one more digit at its end, and a separator
stands between two fields.  The readers accept exactly these, and the writers write
numerals of what they were given.

## Main definitions

* `DecimalDigit c d`, `HexDigit c d` — a character is the digit for a number.
* `Numeral digit base cs n` — the characters are digits that stand for `n`.

## Main results

* `splitLast?_eq_some_iff`, `fields_eq_singleton_iff`, `fields_eq_cons_iff` — what stands
  between separators.
* `decimal?_eq_some_iff`, `hexadecimal?_eq_some_iff` — **a value is read off exactly the
  numerals for it.**
* `numeral_toDigits` — the digits of a number are a numeral for it.
-/

namespace EventLoop
namespace Address

/-! ### Separators -/

section

variable {sep : Char} {cs before after piece next : List Char} {rest : List (List Char)}

theorem splitLast?_eq_none_iff : splitLast? sep cs = none ↔ sep ∉ cs := by
  induction cs with
  | nil => exact iff_of_true rfl List.not_mem_nil
  | cons c cs ih =>
    rw [splitLast?, List.mem_cons, not_or, ← ih]
    cases splitLast? sep cs with
    | some p => exact iff_of_false nofun fun h => nomatch h.2
    | none =>
      by_cases hc : c = sep
      · exact iff_of_false (by simp [hc]) fun h => h.1 hc.symm
      · exact iff_of_true (if_neg hc) ⟨Ne.symm hc, rfl⟩

/-- What stands before and after the last separator. -/
theorem splitLast?_eq_some_iff :
    splitLast? sep cs = some (before, after) ↔ cs = before ++ sep :: after ∧ sep ∉ after := by
  constructor
  · intro h
    induction cs generalizing before with
    | nil => cases h
    | cons c cs ih =>
      rw [splitLast?] at h
      -- the last separator of the tail wins over one in front of it
      split at h
      · next front back hsplit =>
        obtain ⟨rfl, rfl⟩ := Prod.mk.inj (Option.some.inj h)
        obtain ⟨rfl, hback⟩ := ih hsplit
        exact ⟨rfl, hback⟩
      · next hsplit =>
        split at h
        · next hc =>
          obtain ⟨rfl, rfl⟩ := Prod.mk.inj (Option.some.inj h)
          exact ⟨congrArg (· :: cs) hc, splitLast?_eq_none_iff.mp hsplit⟩
        · cases h
  · rintro ⟨rfl, hafter⟩
    induction before with
    | nil =>
      rw [List.nil_append, splitLast?, splitLast?_eq_none_iff.mpr hafter]
      exact if_pos rfl
    | cons c before ih => rw [List.cons_append, splitLast?, ih]

theorem fields_ne_nil (sep : Char) (cs : List Char) : fields sep cs ≠ [] := by
  cases cs with
  | nil => exact nofun
  | cons c cs =>
    rw [fields]
    split
    · exact nofun
    · split <;> exact nofun

theorem fields_cons_of_ne {c : Char} (hc : c ≠ sep) (h : fields sep cs = piece :: rest) :
    fields sep (c :: cs) = (c :: piece) :: rest := by
  rw [fields, if_neg hc, h]

/-- A field ends at a separator. -/
theorem fields_append (h : sep ∉ piece) :
    fields sep (piece ++ sep :: cs) = piece :: fields sep cs := by
  induction piece with
  | nil => rw [List.nil_append, fields, if_pos rfl]
  | cons c piece ih =>
    rw [List.mem_cons, not_or] at h
    exact fields_cons_of_ne (Ne.symm h.1) (ih h.2)

theorem fields_of_notMem (h : sep ∉ cs) : fields sep cs = [cs] := by
  induction cs with
  | nil => rfl
  | cons c cs ih =>
    rw [List.mem_cons, not_or] at h
    exact fields_cons_of_ne (Ne.symm h.1) (ih h.2)

/-- What is not empty and has no separator begins with something else. -/
theorem exists_cons_of_notMem {front : List Char} (hne : front ≠ [])
    (hsep : sep ∉ front) (tail : List Char) : ∃ c rest, front ++ tail = c :: rest ∧ c ≠ sep := by
  cases front with
  | nil => exact absurd rfl hne
  | cons c front => exact ⟨c, front ++ tail, rfl, fun hc => hsep (hc ▸ List.mem_cons_self)⟩

/-- The first field, and either nothing else or a separator and the others. -/
theorem fields_spec (sep : Char) (cs : List Char) : ∃ piece, sep ∉ piece ∧
    (cs = piece ∨ ∃ tail, cs = piece ++ sep :: tail) := by
  induction cs with
  | nil => exact ⟨[], List.not_mem_nil, .inl rfl⟩
  | cons c cs ih =>
    -- the piece ends at the first separator
    by_cases hc : c = sep
    · exact ⟨[], List.not_mem_nil, .inr ⟨cs, congrArg (· :: cs) hc⟩⟩
    · obtain ⟨piece, hpiece, hcs⟩ := ih
      refine ⟨c :: piece, ?_, ?_⟩
      · rw [List.mem_cons, not_or]
        exact ⟨Ne.symm hc, hpiece⟩
      · rcases hcs with rfl | ⟨tail, rfl⟩
        · exact .inl rfl
        · exact .inr ⟨tail, rfl⟩

theorem fields_eq_singleton_iff : fields sep cs = [piece] ↔ cs = piece ∧ sep ∉ piece := by
  constructor
  · intro h
    obtain ⟨front, hfront, rfl | ⟨tail, rfl⟩⟩ := fields_spec sep cs
    · rw [fields_of_notMem hfront, List.cons.injEq] at h
      exact ⟨h.1, h.1 ▸ hfront⟩
    · rw [fields_append hfront, List.cons.injEq] at h
      exact absurd h.2 (fields_ne_nil sep tail)
  · rintro ⟨rfl, h⟩
    exact fields_of_notMem h

theorem fields_eq_cons_iff : fields sep cs = piece :: next :: rest ↔
    ∃ tail, cs = piece ++ sep :: tail ∧ sep ∉ piece ∧ fields sep tail = next :: rest := by
  constructor
  · intro h
    obtain ⟨front, hfront, rfl | ⟨tail, rfl⟩⟩ := fields_spec sep cs
    · rw [fields_of_notMem hfront] at h
      cases h
    · rw [fields_append hfront, List.cons.injEq] at h
      obtain ⟨rfl, htail⟩ := h
      exact ⟨tail, rfl, hfront, htail⟩
  · rintro ⟨tail, rfl, hpiece, htail⟩
    rw [fields_append hpiece, htail]

end

/-! ### Numerals -/

/-- A decimal digit and the number it stands for. -/
def DecimalDigit (c : Char) (d : Nat) : Prop := d < 10 ∧ c = d.digitChar

/-- A hexadecimal digit, in either case, and the number it stands for. -/
def HexDigit (c : Char) (d : Nat) : Prop := d < 16 ∧ (c = d.digitChar ∨ c = d.digitChar.toUpper)

instance (c : Char) (d : Nat) : Decidable (DecimalDigit c d) :=
  inferInstanceAs (Decidable (_ ∧ _))

instance (c : Char) (d : Nat) : Decidable (HexDigit c d) := inferInstanceAs (Decidable (_ ∧ _))

/-- What holds of every number in a range holds of the characters in it. -/
theorem of_range {P : Char → Prop} {low high c : Char}
    (h : ∀ n ≤ high.toNat, low.toNat ≤ n → P (Char.ofNat n)) (hlow : low ≤ c) (hhigh : c ≤ high) :
    P c :=
  Char.ofNat_toNat c ▸ h c.toNat hhigh hlow

theorem decimalDigit?_eq_some_iff {c : Char} {d : Nat} :
    decimalDigit? c = some d ↔ DecimalDigit c d := by
  constructor
  · intro h
    unfold decimalDigit? at h
    split at h
    · next hc =>
      obtain rfl := Option.some.inj h
      exact of_range (P := fun c => DecimalDigit c (c.toNat - '0'.toNat)) (by decide) hc.1 hc.2
    · cases h
  · rintro ⟨hd, rfl⟩
    interval_cases d <;> rfl

theorem hexadecimalDigit?_eq_some_iff {c : Char} {d : Nat} :
    hexadecimalDigit? c = some d ↔ HexDigit c d := by
  constructor
  · intro h
    unfold hexadecimalDigit? at h
    split at h
    · next hc =>
      obtain rfl := Option.some.inj h
      exact of_range (P := fun c => HexDigit c (c.toNat - '0'.toNat)) (by decide) hc.1 hc.2
    · split at h
      · next hc =>
        obtain rfl := Option.some.inj h
        exact of_range (P := fun c => HexDigit c (c.toNat - 'a'.toNat + 10)) (by decide) hc.1 hc.2
      · split at h
        · next hc =>
          obtain rfl := Option.some.inj h
          exact of_range (P := fun c => HexDigit c (c.toNat - 'A'.toNat + 10)) (by decide) hc.1 hc.2
        · cases h
  · rintro ⟨hd, rfl | rfl⟩
    · interval_cases d <;> rfl
    · interval_cases d <;> rfl

/-- Digits that stand for a number in a base. -/
inductive Numeral (digit : Char → Nat → Prop) (base : Nat) : List Char → Nat → Prop
  /-- One digit. -/
  | single {c : Char} {d : Nat} (hc : digit c d) : Numeral digit base [c] d
  /-- One more digit at the end. -/
  | snoc {cs : List Char} {c : Char} {n d : Nat} (hcs : Numeral digit base cs n)
    (hc : digit c d) : Numeral digit base (cs ++ [c]) (n * base + d)

section

variable {digit : Char → Nat → Prop} {base n : Nat} {cs : List Char}

namespace Numeral

theorem ne_nil (h : Numeral digit base cs n) : cs ≠ [] := by
  cases h with
  | single hc => exact nofun
  | snoc hcs hc => exact List.append_ne_nil_of_right_ne_nil _ nofun

/-- There is no character in a numeral that is no digit. -/
theorem notMem (h : Numeral digit base cs n) {c : Char} (hc : ∀ d, ¬digit c d) : c ∉ cs := by
  induction h with
  | single hd =>
    rw [List.mem_singleton]
    rintro rfl
    exact hc _ hd
  | snoc hcs hd ih =>
    rw [List.mem_append, List.mem_singleton, not_or]
    refine ⟨ih, ?_⟩
    rintro rfl
    exact hc _ hd

/-- A numeral with few digits stands for a small number. -/
theorem lt_pow (hdigit : ∀ c d, digit c d → d < base) (h : Numeral digit base cs n) :
    n < base ^ cs.length := by
  induction h with
  | single hc =>
    rw [List.length_singleton, Nat.pow_one]
    exact hdigit _ _ hc
  | @snoc cs c n d hcs hc ih =>
    rw [List.length_append, List.length_singleton, Nat.pow_succ]
    calc n * base + d < n * base + base := Nat.add_lt_add_left (hdigit _ _ hc) _
      _ = (n + 1) * base := (Nat.succ_mul n base).symm
      _ ≤ base ^ cs.length * base := Nat.mul_le_mul_right base ih

end Numeral

section

variable {digit? : Char → Option Nat} {c : Char}

theorem digits?_single : digits? digit? [c] = (digit? c).map ([·]) := by
  show [c].mapM digit? = _
  rw [List.mapM_cons]
  cases digit? c <;> rfl

/-- A character at the end of digits is one more digit. -/
theorem digits?_concat (hne : cs ≠ []) : digits? digit? (cs ++ [c])
    = (digits? digit? cs).bind fun ds => (digit? c).map fun d => ds ++ [d] := by
  have hdigits : ∀ cs : List Char, cs ≠ [] → digits? digit? cs = cs.mapM digit? := by
    intro cs hcs
    cases cs with
    | nil => exact absurd rfl hcs
    | cons c cs => rfl
  rw [hdigits _ (List.append_ne_nil_of_left_ne_nil hne _), hdigits _ hne, List.mapM_append,
    List.mapM_cons]
  cases cs.mapM digit? with
  | none => rfl
  | some ds => cases digit? c <;> rfl

theorem value_concat (base : Nat) (ds : List Nat) (d : Nat) :
    value base (ds ++ [d]) = value base ds * base + d := by
  rw [value, List.foldl_append]
  rfl

/-- **The value of digits is read off exactly the numerals for it.** -/
theorem value_digits?_eq_some_iff (hdigit : ∀ c d, digit? c = some d ↔ digit c d) :
    (digits? digit? cs).map (value base) = some n ↔ Numeral digit base cs n := by
  constructor
  · intro h
    -- on the last digit, which is how the value is built
    induction cs using List.reverseRecOn generalizing n with
    | nil => cases h
    | append_singleton cs c ih =>
      rcases eq_or_ne cs [] with rfl | hne
      · rw [List.nil_append, digits?_single, Option.map_map, Option.map_eq_some_iff] at h
        obtain ⟨d, hd, rfl⟩ := h
        show Numeral digit base [c] (0 * base + d)
        rw [Nat.zero_mul, Nat.zero_add]
        exact .single ((hdigit c d).mp hd)
      · rw [digits?_concat hne] at h
        obtain ⟨ds', hall, rfl⟩ := Option.map_eq_some_iff.mp h
        obtain ⟨ds, hds, hlast⟩ := Option.bind_eq_some_iff.mp hall
        obtain ⟨d, hd, rfl⟩ := Option.map_eq_some_iff.mp hlast
        rw [value_concat]
        exact .snoc (ih (by rw [hds]; rfl)) ((hdigit c d).mp hd)
  · intro h
    induction h with
    | @single c d hc =>
      rw [digits?_single, (hdigit c d).mpr hc]
      show some (0 * base + d) = some d
      rw [Nat.zero_mul, Nat.zero_add]
    | @snoc cs c n d hcs hc ih =>
      obtain ⟨ds, hds, rfl⟩ := Option.map_eq_some_iff.mp ih
      rw [digits?_concat hcs.ne_nil, hds, (hdigit c d).mpr hc]
      exact congrArg some (value_concat base ds d)

end

theorem decimal?_eq_some_iff : decimal? cs = some n ↔ Numeral DecimalDigit 10 cs n :=
  value_digits?_eq_some_iff fun _ _ => decimalDigit?_eq_some_iff

theorem hexadecimal?_eq_some_iff : hexadecimal? cs = some n ↔ Numeral HexDigit 16 cs n :=
  value_digits?_eq_some_iff fun _ _ => hexadecimalDigit?_eq_some_iff

end

/-- The digits of a number are a numeral for it. -/
theorem numeral_toDigits {digit : Char → Nat → Prop} {base : Nat} (hbase : 1 < base)
    (hdigit : ∀ d < base, digit d.digitChar d) (n : Nat) :
    Numeral digit base (Nat.toDigits base n) n := by
  induction n using Nat.strong_induction_on with
  | _ n ih =>
    rcases Nat.lt_or_ge n base with hn | hn
    · rw [Nat.toDigits_of_lt_base hn]
      exact .single (hdigit n hn)
    · rw [Nat.toDigits_of_base_le hbase hn]
      have hmod : n % base < base := Nat.mod_lt _ (Nat.zero_lt_of_lt hbase)
      have hsnoc := (ih (n / base) (Nat.div_lt_self (by omega) hbase)).snoc (hdigit _ hmod)
      rwa [Nat.div_add_mod'] at hsnoc

theorem numeral_decimalText (n : Nat) : Numeral DecimalDigit 10 (decimalText n) n :=
  numeral_toDigits (by decide) (fun _ hd => ⟨hd, rfl⟩) n

theorem numeral_hexadecimalText (n : Nat) : Numeral HexDigit 16 (hexadecimalText n) n :=
  numeral_toDigits (by decide) (fun _ hd => ⟨hd, .inl rfl⟩) n

/-- Only zero itself is written with a zero in front. -/
theorem eq_zero_of_head?_decimalText {n : Nat} (h : (decimalText n).head? = some '0') :
    n = 0 := by
  -- the leading digit of a number is that of its tenth, down to a single digit
  induction n using Nat.strong_induction_on with
  | _ n ih =>
    unfold decimalText at h
    rcases Nat.lt_or_ge n 10 with hn | hn
    · rw [Nat.toDigits_of_lt_base hn, List.head?_cons, Option.some.injEq] at h
      have hcode : n.digitChar.toNat = 48 := congrArg Char.toNat h
      rw [Nat.toNat_digitChar_of_lt_ten hn] at hcode
      omega
    · rw [Nat.toDigits_of_base_le (by decide) hn, List.head?_append,
        Option.or_of_isSome (List.isSome_head?.mpr Nat.toDigits_ne_nil)] at h
      have hzero := ih (n / 10) (Nat.div_lt_self (by omega) (by decide)) h
      omega

end Address
end EventLoop

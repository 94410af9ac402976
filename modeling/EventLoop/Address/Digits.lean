/-!
# Digits and fields

The small pieces of text that addresses are made of.

## Main definitions

* `fields` — the pieces between occurrences of a separator.
* `splitLast?` — what stands before and after the last occurrence of a separator.
* `decimal?`, `hexadecimal?` — the value of a non-empty string of digits.
* `decimalText`, `hexadecimalText` — the digits of a value.
-/

namespace EventLoop

namespace Address

/-- The pieces between occurrences of `separator`; there is always at least one. -/
def fields (separator : Char) : List Char → List (List Char)
  | [] => [[]]
  | c :: cs =>
    if c = separator then [] :: fields separator cs
    else
      match fields separator cs with
      | [] => [[c]]
      | piece :: rest => (c :: piece) :: rest

/-- What stands before and after the last `separator`. -/
def splitLast? (separator : Char) : List Char → Option (List Char × List Char)
  | [] => none
  | c :: cs =>
    match splitLast? separator cs with
    | some (before, after) => some (c :: before, after)
    | none => if c = separator then some ([], cs) else none

/-- The value of a decimal digit. -/
def decimalDigit? (c : Char) : Option Nat :=
  if '0' ≤ c ∧ c ≤ '9' then some (c.toNat - '0'.toNat) else none

/-- The value of a hexadecimal digit in either case. -/
def hexadecimalDigit? (c : Char) : Option Nat :=
  if '0' ≤ c ∧ c ≤ '9' then some (c.toNat - '0'.toNat)
  else if 'a' ≤ c ∧ c ≤ 'f' then some (c.toNat - 'a'.toNat + 10)
  else if 'A' ≤ c ∧ c ≤ 'F' then some (c.toNat - 'A'.toNat + 10)
  else none

/-- The digits of a non-empty string, if each character is one. -/
def digits? (digit? : Char → Option Nat) : List Char → Option (List Nat)
  | [] => none
  | cs => cs.mapM digit?

/-- The value of digits in a base, most significant first. -/
def value (base : Nat) (ds : List Nat) : Nat := ds.foldl (fun n d => n * base + d) 0

/-- The value of a non-empty string of decimal digits. -/
def decimal? (cs : List Char) : Option Nat := (digits? decimalDigit? cs).map (value 10)

/-- The value of a non-empty string of hexadecimal digits. -/
def hexadecimal? (cs : List Char) : Option Nat := (digits? hexadecimalDigit? cs).map (value 16)

/-- The decimal digits of a number. -/
def decimalText (n : Nat) : List Char := Nat.toDigits 10 n

/-- The hexadecimal digits of a number, in lower case. -/
def hexadecimalText (n : Nat) : List Char := Nat.toDigits 16 n

/-- The part of a text before its first NUL character. -/
def beforeNul (cs : List Char) : List Char := cs.takeWhile (· ≠ '\x00')

end Address

end EventLoop

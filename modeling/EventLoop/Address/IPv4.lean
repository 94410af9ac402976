import EventLoop.Address.Digits

/-!
# IPv4 addresses

## Main definitions

* `IPv4` — four octets.
* `IPv4.parse?` — reads a dotted quad: four decimal octets without leading zeros.
* `IPv4.text` — writes one.
-/

namespace EventLoop

/-- An IPv4 address. -/
structure IPv4 where
  /-- The first octet. -/
  a : UInt8
  /-- The second octet. -/
  b : UInt8
  /-- The third octet. -/
  c : UInt8
  /-- The fourth octet. -/
  d : UInt8
  deriving DecidableEq, Repr

namespace IPv4

open Address

/-- Reads one octet: at most 255, and only zero itself starts with a zero. -/
def octet? (cs : List Char) : Option UInt8 :=
  if cs.head? = some '0' ∧ cs.length ≠ 1 then none
  else match decimal? cs with
    | some n => if n ≤ 255 then some (UInt8.ofNat n) else none
    | none => none

/-- Reads a dotted quad. -/
def parse? (cs : List Char) : Option IPv4 :=
  match fields '.' cs with
  | [a, b, c, d] => do
    let a ← octet? a
    let b ← octet? b
    let c ← octet? c
    let d ← octet? d
    return ⟨a, b, c, d⟩
  | _ => none

/-- Writes a dotted quad. -/
def text (ip : IPv4) : List Char :=
  decimalText ip.a.toNat ++ '.' :: (decimalText ip.b.toNat ++ '.' ::
    (decimalText ip.c.toNat ++ '.' :: decimalText ip.d.toNat))

end IPv4

end EventLoop

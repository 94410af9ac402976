import EventLoop.Address.IPv4

/-!
# IPv6 addresses

Eight groups of sixteen bits. One run of zero groups may be left out as `::`, and the last
two groups may be written as a dotted quad.

## Main definitions

* `IPv6` — eight groups.
* `IPv6.parse?` — reads a literal.
* `IPv6.text` — writes the usual form: the first of the longest runs of at least two zero
  groups is left out, and an embedded IPv4 address is written as one.
-/

namespace EventLoop

/-- An IPv6 address. -/
structure IPv6 where
  /-- The groups, most significant first. -/
  groups : Vector UInt16 8
  deriving DecidableEq, Repr

namespace IPv6

open Address

/-- The eight groups of a list of that length. -/
def ofList? (groups : List UInt16) : Option IPv6 :=
  if h : groups.length = 8 then some ⟨⟨groups.toArray, by simpa using h⟩⟩ else none

/-- Reads one group: one to four hexadecimal digits. -/
def group? (cs : List Char) : Option UInt16 :=
  if cs.length ≤ 4 then (hexadecimal? cs).map UInt16.ofNat else none

/-- The two groups an IPv4 address fills. -/
def embed (ip : IPv4) : List UInt16 :=
  [ip.a.toUInt16 <<< 8 ||| ip.b.toUInt16, ip.c.toUInt16 <<< 8 ||| ip.d.toUInt16]

/-- The IPv4 address that fills two groups. -/
def extract (high low : UInt16) : IPv4 :=
  ⟨(high >>> 8).toUInt8, high.toUInt8, (low >>> 8).toUInt8, low.toUInt8⟩

/-- Reads groups between colons; with `quad`, the last may be a dotted quad. -/
def fieldGroups? (quad : Bool) : List (List Char) → Option (List UInt16)
  | [] => some []
  | [last] =>
    match quad, IPv4.parse? last with
    | true, some ip => some (embed ip)
    | _, _ => (group? last).map ([·])
  | piece :: rest => do
    let g ← group? piece
    let gs ← fieldGroups? quad rest
    return g :: gs

/-- Reads a colon-separated list of groups; empty text has none. -/
def groups? (quad : Bool) : List Char → Option (List UInt16)
  | [] => some []
  | cs => fieldGroups? quad (fields ':' cs)

/-- What stands before and after the first pair of colons. -/
def splitGap? : List Char → Option (List Char × List Char)
  | ':' :: ':' :: rest => some ([], rest)
  | c :: rest => (splitGap? rest).map fun (before, after) => (c :: before, after)
  | [] => none

/-- Reads a literal. A gap stands for at least one group of zeros. -/
def parse? (cs : List Char) : Option IPv6 :=
  match splitGap? cs with
  | none => (groups? true cs).bind ofList?
  | some (before, after) => do
    let high ← groups? false before
    let low ← groups? true after
    if high.length + low.length ≤ 7 then
      ofList? (high ++ List.replicate (8 - high.length - low.length) 0 ++ low)
    else none

/-! ### Writing -/

/-- The length of the run of zero groups at the front. -/
def zeroRun (groups : List UInt16) : Nat := (groups.takeWhile (· == 0)).length

/-- The start and length of the first longest run of zero groups. -/
def longestRun (groups : List UInt16) : Nat × Nat :=
  (List.range groups.length).foldl
    (fun best i =>
      let n := zeroRun (groups.drop i)
      if best.2 < n then (i, n) else best)
    (0, 0)

/-- Groups with colons between them. -/
def join : List UInt16 → List Char
  | [] => []
  | [g] => hexadecimalText g.toNat
  | g :: rest => hexadecimalText g.toNat ++ ':' :: join rest

/-- Writes a literal. -/
def text (ip : IPv6) : List Char :=
  let groups := ip.groups.toList
  let (start, length) := longestRun groups
  if length < 2 then join groups
  else
    let before := join (groups.take start)
    let gap := before ++ [':', ':']
    match start, groups.drop (start + length) with
    | 0, [high, low] => gap ++ (extract high low).text
    | 0, [0xFFFF, high, low] => gap ++ "ffff:".toList ++ (extract high low).text
    | _, after => gap ++ join after

end IPv6

end EventLoop

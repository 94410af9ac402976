/-!
# Strict UTF-8

Reads bytes as text. Only the shortest form of each Unicode scalar value is accepted: no
overlong forms, no surrogates, nothing past U+10FFFF. A refusal names the offset of the
first sequence that is no such form.

## Main definitions

* `Utf8.next` — takes one character off the front of the bytes after its lead byte.
* `Utf8.decode` — the text of a whole byte sequence, or its first defect.
* `Utf8.decodeLossy` — text for any bytes, with replacements where they are none.
-/

namespace EventLoop

namespace Utf8

/-- What is wrong with a sequence. -/
inductive Fault
  /-- No sequence starts with this byte. -/
  | lead
  /-- The bytes end before the sequence does. -/
  | truncated
  /-- A byte of the sequence is not one that may follow. -/
  | continuation
  deriving DecidableEq, Repr

/-- The first sequence that is not UTF-8. -/
structure Defect where
  /-- What is wrong with it. -/
  fault : Fault
  /-- How many bytes stand before it. -/
  offset : Nat
  deriving DecidableEq, Repr

/-- The wording of a fault. -/
def Fault.text : Fault → String
  | .lead => "invalid lead byte"
  | .truncated => "truncated sequence"
  | .continuation => "invalid continuation"

/-- The wording of a defect. -/
def Defect.text (d : Defect) : String :=
  d.fault.text ++ " at offset " ++ toString d.offset

/-- The length of a sequence. -/
inductive Width
  | one | two | three | four
  deriving DecidableEq, Repr

/-- How many bytes follow the lead byte. -/
def Width.following : Width → Nat
  | .one => 0
  | .two => 1
  | .three => 2
  | .four => 3

/-- The length a lead byte announces; none if no sequence starts with it. -/
def width? (lead : UInt8) : Option Width :=
  if lead < 0x80 then some .one
  else if 0xC2 ≤ lead && lead ≤ 0xDF then some .two
  else if 0xE0 ≤ lead && lead ≤ 0xEF then some .three
  else if 0xF0 ≤ lead && lead ≤ 0xF4 then some .four
  else none

/-- A byte that may stand inside a sequence. -/
def isContinuation (b : UInt8) : Bool := 0x80 ≤ b && b ≤ 0xBF

/-- A byte that may stand right after the lead byte. Some leads narrow the range, which
shuts out overlong forms, surrogates and values past U+10FFFF. -/
def mayFollow (lead second : UInt8) : Bool :=
  if lead = 0xE0 then 0xA0 ≤ second && second ≤ 0xBF
  else if lead = 0xED then 0x80 ≤ second && second ≤ 0x9F
  else if lead = 0xF0 then 0x90 ≤ second && second ≤ 0xBF
  else if lead = 0xF4 then 0x80 ≤ second && second ≤ 0x8F
  else isContinuation second

/-- The character that two bytes spell. -/
def scalar₂ (a b : UInt8) : Char :=
  Char.ofNat ((a.toNat - 0xC0) * 64 + (b.toNat - 0x80))

/-- The character that three bytes spell. -/
def scalar₃ (a b c : UInt8) : Char :=
  Char.ofNat ((a.toNat - 0xE0) * 4096 + (b.toNat - 0x80) * 64 + (c.toNat - 0x80))

/-- The character that four bytes spell. -/
def scalar₄ (a b c d : UInt8) : Char :=
  Char.ofNat ((a.toNat - 0xF0) * 262144 + (b.toNat - 0x80) * 4096 + (c.toNat - 0x80) * 64 +
    (d.toNat - 0x80))

/-- Takes one character off the bytes `lead :: rest`. That the bytes are too few is noticed
before any of them is looked at. -/
def next (lead : UInt8) (rest : List UInt8) : Except Fault (Char × List UInt8) :=
  match width? lead with
  | none => .error .lead
  | some .one => .ok (Char.ofNat lead.toNat, rest)
  | some .two =>
    match rest with
    | b :: rest => if mayFollow lead b then .ok (scalar₂ lead b, rest) else .error .continuation
    | _ => .error .truncated
  | some .three =>
    match rest with
    | b :: c :: rest =>
      if mayFollow lead b && isContinuation c then .ok (scalar₃ lead b c, rest)
      else .error .continuation
    | _ => .error .truncated
  | some .four =>
    match rest with
    | b :: c :: d :: rest =>
      if mayFollow lead b && isContinuation c && isContinuation d then
        .ok (scalar₄ lead b c d, rest)
      else .error .continuation
    | _ => .error .truncated

/-- A character taken off leaves no more bytes than there were. -/
theorem length_of_next {lead : UInt8} {rest tail : List UInt8} {c : Char}
    (h : next lead rest = .ok (c, tail)) : tail.length ≤ rest.length := by
  unfold next at h
  split at h
  · exact nomatch h
  · simp only [Except.ok.injEq, Prod.mk.injEq] at h
    exact Nat.le_of_eq (congrArg List.length h.2.symm)
  all_goals
    split at h
    · split at h
      · simp only [Except.ok.injEq, Prod.mk.injEq] at h
        simp only [← h.2, List.length_cons]
        omega
      · exact nomatch h
    · exact nomatch h

/-- Reads on at `offset`, with the characters before it in `done`, last one first. -/
def decodeFrom (offset : Nat) (done : List Char) (bytes : List UInt8) :
    Except Defect (List Char) :=
  match bytes with
  | [] => .ok done.reverse
  | lead :: rest =>
    match _h : next lead rest with
    | .error fault => .error ⟨fault, offset⟩
    | .ok (c, tail) => decodeFrom (offset + c.utf8Size) (c :: done) tail
termination_by bytes.length
decreasing_by
  have := length_of_next _h
  simp only [List.length_cons]
  omega

/-- The text of a byte sequence, or its first defect. -/
def decode (bytes : List UInt8) : Except Defect String :=
  (decodeFrom 0 [] bytes).map String.ofList

/-! ### Showing bytes that need not be text -/

/-- What stands for a stretch of bytes that is no text. -/
def replacement : Char := Char.ofNat 0xFFFD

/-- Takes the longest start of a sequence off bytes that are no sequence. -/
def skip (lead : UInt8) (rest : List UInt8) : List UInt8 :=
  match (width? lead).elim 0 Width.following, rest with
  | most + 1, second :: tail =>
    if mayFollow lead second then
      tail.drop (min most (tail.takeWhile isContinuation).length)
    else rest
  | _, _ => rest

/-- Nothing is added by skipping. -/
theorem length_skip_le (lead : UInt8) (rest : List UInt8) :
    (skip lead rest).length ≤ rest.length := by
  unfold skip
  split
  · split
    · simp only [List.length_drop, List.length_cons]
      omega
    · exact Nat.le_refl _
  · exact Nat.le_refl _

/-- The characters of some bytes, with a replacement for every stretch that is no text. -/
def decodeLossyFrom (done : List Char) (bytes : List UInt8) : List Char :=
  match bytes with
  | [] => done.reverse
  | lead :: rest =>
    match _h : next lead rest with
    | .ok (c, tail) => decodeLossyFrom (c :: done) tail
    | .error _ => decodeLossyFrom (replacement :: done) (skip lead rest)
termination_by bytes.length
decreasing_by
  · have := length_of_next _h
    simp only [List.length_cons]
    omega
  · have := length_skip_le lead rest
    simp only [List.length_cons]
    omega

/-- Some bytes as text, with a replacement for every stretch that is none. -/
def decodeLossy (bytes : List UInt8) : String := String.ofList (decodeLossyFrom [] bytes)

end Utf8

end EventLoop

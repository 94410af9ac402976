import EventLoop.Address.IPv6
import EventLoop.Proofs.Address.Digits

/-!
# Literals

The written forms of addresses as grammars.  A dotted quad is four decimal octets, and
an IPv6 literal is eight groups with colons between them, one run of which may be left
out; the last two groups may be a dotted quad.  Reading goes by splitting a text at its
separators; that it accepts these grammars and nothing else is proved here.

## Main definitions

* `IPv4.Octet cs o`, `IPv4.Quad cs ip` — the characters write an octet, an IPv4 address.
* `IPv6.Group cs g`, `IPv6.Groups quad cs gs` — the characters write one group, and
  groups with colons between them.
* `IPv6.Literal cs ip` — the characters write an IPv6 address.

## Main results

* `IPv4.parse?_eq_some_iff` — **exactly the dotted quads are read as IPv4 addresses.**
* `IPv6.parse?_eq_some_iff` — **exactly the IPv6 literals are read as IPv6 addresses.**
-/

namespace EventLoop

open Address

/-! ### Dotted quads -/

namespace IPv4

/-- A decimal numeral for an octet. Only zero itself begins with a zero. -/
structure Octet (cs : List Char) (o : UInt8) : Prop where
  /-- The characters are a numeral for the octet. -/
  numeral : Numeral DecimalDigit 10 cs o.toNat
  /-- There is no zero in front. -/
  canonical : cs.head? = some '0' → cs.length = 1

/-- Four octets with points between them. -/
inductive Quad : List Char → IPv4 → Prop
  | mk {as bs cs ds : List Char} {a b c d : UInt8} (ha : Octet as a) (hb : Octet bs b)
    (hc : Octet cs c) (hd : Octet ds d) :
    Quad (as ++ '.' :: (bs ++ '.' :: (cs ++ '.' :: ds))) ⟨a, b, c, d⟩

/-- There is no character in an octet that is no digit. -/
theorem Octet.notMem {cs : List Char} {o : UInt8} (h : Octet cs o) {c : Char}
    (hc : ∀ d < 10, c ≠ d.digitChar) : c ∉ cs :=
  h.numeral.notMem fun d hd => hc d hd.1 hd.2

theorem octet?_eq_some_iff {cs : List Char} {o : UInt8} : octet? cs = some o ↔ Octet cs o := by
  constructor
  · intro h
    unfold octet? at h
    split at h
    · cases h
    · next hzero =>
      split at h
      · next n hn =>
        split at h
        · next hle =>
          obtain rfl := Option.some.inj h
          refine ⟨?_, fun hhead => ?_⟩
          · rw [UInt8.toNat_ofNat', Nat.mod_eq_of_lt (by omega)]
            exact decimal?_eq_some_iff.mp hn
          -- a leading zero stands alone
          · by_contra hlen
            exact hzero ⟨hhead, hlen⟩
        · cases h
      · cases h
  · rintro ⟨hnumeral, hcanonical⟩
    have hlt : o.toNat < 256 := o.toNat_lt
    rw [octet?, if_neg fun h => h.2 (hcanonical h.1), decimal?_eq_some_iff.mpr hnumeral]
    show (if o.toNat ≤ 255 then some (UInt8.ofNat o.toNat) else none) = some o
    rw [if_pos (by omega), UInt8.ofNat_toNat]

/-- **Exactly the dotted quads are read.** -/
theorem parse?_eq_some_iff {cs : List Char} {ip : IPv4} : parse? cs = some ip ↔ Quad cs ip := by
  constructor
  · intro h
    unfold parse? at h
    split at h
    · next as bs cs ds hfields =>
      obtain ⟨a, ha, h⟩ := Option.bind_eq_some_iff.mp h
      obtain ⟨b, hb, h⟩ := Option.bind_eq_some_iff.mp h
      obtain ⟨c, hc, h⟩ := Option.bind_eq_some_iff.mp h
      obtain ⟨d, hd, h⟩ := Option.bind_eq_some_iff.mp h
      obtain rfl := Option.some.inj h
      obtain ⟨tail, rfl, -, hfields⟩ := fields_eq_cons_iff.mp hfields
      obtain ⟨tail, rfl, -, hfields⟩ := fields_eq_cons_iff.mp hfields
      obtain ⟨tail, rfl, -, hfields⟩ := fields_eq_cons_iff.mp hfields
      obtain ⟨rfl, -⟩ := fields_eq_singleton_iff.mp hfields
      exact .mk (octet?_eq_some_iff.mp ha) (octet?_eq_some_iff.mp hb) (octet?_eq_some_iff.mp hc)
        (octet?_eq_some_iff.mp hd)
    · cases h
  · rintro ⟨ha, hb, hc, hd⟩
    -- no digit is a point, so that every octet is a field of its own
    have hpoint : ∀ d < 10, '.' ≠ Nat.digitChar d := by decide
    rw [parse?, fields_append (ha.notMem hpoint), fields_append (hb.notMem hpoint),
      fields_append (hc.notMem hpoint), fields_of_notMem (hd.notMem hpoint)]
    dsimp only
    rw [octet?_eq_some_iff.mpr ha, octet?_eq_some_iff.mpr hb, octet?_eq_some_iff.mpr hc,
      octet?_eq_some_iff.mpr hd]
    rfl

/-- There are digits and points in a dotted quad, and nothing else. -/
theorem Quad.notMem {cs : List Char} {ip : IPv4} (h : Quad cs ip) {c : Char} (hpoint : c ≠ '.')
    (hc : ∀ d < 10, c ≠ d.digitChar) : c ∉ cs := by
  cases h with
  | mk ha hb hd he =>
    simp only [List.mem_append, List.mem_cons, not_or]
    exact ⟨ha.notMem hc, hpoint, hb.notMem hc, hpoint, hd.notMem hc, hpoint, he.notMem hc⟩

theorem Quad.ne_nil {cs : List Char} {ip : IPv4} (h : Quad cs ip) : cs ≠ [] := by
  cases h with
  | mk _ _ _ _ => exact List.append_ne_nil_of_right_ne_nil _ nofun

end IPv4

/-! ### IPv6 literals -/

namespace IPv6

/-- A hexadecimal numeral for a group, of at most four digits. -/
structure Group (cs : List Char) (g : UInt16) : Prop where
  /-- The characters are a numeral for the group. -/
  numeral : Numeral HexDigit 16 cs g.toNat
  /-- There are at most four. -/
  short : cs.length ≤ 4

/-- Groups with colons between them. With `quad`, the last two may be a dotted quad. -/
inductive Groups (quad : Bool) : List Char → List UInt16 → Prop
  /-- One group. -/
  | single {cs : List Char} {g : UInt16} (hg : Group cs g) : Groups quad cs [g]
  /-- The two groups of a dotted quad. -/
  | quad {cs : List Char} {ip : IPv4} (hquad : quad = true) (hip : IPv4.Quad cs ip) :
    Groups quad cs (embed ip)
  /-- One more group in front. -/
  | cons {cs rest : List Char} {g : UInt16} {gs : List UInt16} (hg : Group cs g)
    (hrest : Groups quad rest gs) : Groups quad (cs ++ ':' :: rest) (g :: gs)

/-- Any number of groups, also none. -/
def Stretch (quad : Bool) (cs : List Char) (gs : List UInt16) : Prop :=
  (cs = [] ∧ gs = []) ∨ Groups quad cs gs

/-- The written forms of an address. -/
inductive Literal : List Char → IPv6 → Prop
  /-- All groups are there. -/
  | full {cs : List Char} {ip : IPv6} (h : Groups true cs ip.groups.toList) : Literal cs ip
  /-- At least one group of zeros is left out. -/
  | gap {before after : List Char} {high low : List UInt16} {n : Nat} {ip : IPv6}
    (hhigh : Stretch false before high) (hlow : Stretch true after low) (hn : 0 < n)
    (hip : ip.groups.toList = high ++ List.replicate n 0 ++ low) :
    Literal (before ++ ':' :: ':' :: after) ip

theorem group?_eq_some_iff {cs : List Char} {g : UInt16} : group? cs = some g ↔ Group cs g := by
  constructor
  · intro h
    unfold group? at h
    split at h
    · next hshort =>
      obtain ⟨n, hn, rfl⟩ := Option.map_eq_some_iff.mp h
      have hnumeral := hexadecimal?_eq_some_iff.mp hn
      -- four hexadecimal digits fit sixteen bits
      have hlt : n < 16 ^ 4 := Nat.lt_of_lt_of_le (hnumeral.lt_pow fun _ _ hd => hd.1)
        (Nat.pow_le_pow_right (by decide) hshort)
      refine ⟨?_, hshort⟩
      rwa [UInt16.toNat_ofNat', Nat.mod_eq_of_lt (show n < 2 ^ 16 from hlt)]
    · cases h
  · rintro ⟨hnumeral, hshort⟩
    rw [group?, if_pos hshort, hexadecimal?_eq_some_iff.mpr hnumeral]
    exact congrArg some UInt16.ofNat_toNat

/-- There is no character in a group that is no digit. -/
theorem Group.notMem {cs : List Char} {g : UInt16} (h : Group cs g) {c : Char}
    (hc : ∀ d < 16, c ≠ d.digitChar ∧ c ≠ d.digitChar.toUpper) : c ∉ cs :=
  h.numeral.notMem fun d hd => hd.2.elim (hc d hd.1).1 (hc d hd.1).2

theorem colon_notMem_group {cs : List Char} {g : UInt16} (h : Group cs g) : ':' ∉ cs :=
  h.notMem (by decide)

theorem colon_notMem_quad {cs : List Char} {ip : IPv4} (h : IPv4.Quad cs ip) : ':' ∉ cs :=
  h.notMem (by decide) (by decide)

/-- A dotted quad is no group, because of its points. -/
theorem not_group_of_quad {cs : List Char} {ip : IPv4} {g : UInt16} (h : IPv4.Quad cs ip) :
    ¬Group cs g := by
  intro hg
  refine hg.notMem (c := '.') (by decide) ?_
  cases h with
  | mk _ _ _ _ => exact List.mem_append_right _ List.mem_cons_self

/-- Groups do not begin with a colon. -/
theorem Groups.exists_cons {quad : Bool} {cs : List Char} {gs : List UInt16}
    (h : Groups quad cs gs) : ∃ c rest, cs = c :: rest ∧ c ≠ ':' := by
  cases h with
  | single hg =>
    rw [← List.append_nil cs]
    exact exists_cons_of_notMem hg.numeral.ne_nil (colon_notMem_group hg) []
  | quad _ hip =>
    rw [← List.append_nil cs]
    exact exists_cons_of_notMem hip.ne_nil (colon_notMem_quad hip) []
  | cons hg _ => exact exists_cons_of_notMem hg.numeral.ne_nil (colon_notMem_group hg) _

/-! Reading groups. -/

theorem fieldGroups?_cons {quad : Bool} {piece next : List Char} {rest : List (List Char)} :
    fieldGroups? quad (piece :: next :: rest)
      = (group? piece).bind fun g => (fieldGroups? quad (next :: rest)).map (g :: ·) := by
  rw [fieldGroups?]
  · cases group? piece with
    | none => rfl
    | some g =>
      show (fieldGroups? quad (next :: rest)).bind _ = _
      cases fieldGroups? quad (next :: rest) <;> rfl
  · exact nofun

theorem fieldGroups?_single_iff {quad : Bool} {piece : List Char} {gs : List UInt16} :
    fieldGroups? quad [piece] = some gs ↔
      (quad = true ∧ ∃ ip, IPv4.Quad piece ip ∧ gs = embed ip) ∨ ∃ g, Group piece g ∧ gs = [g] := by
  unfold fieldGroups?
  constructor
  · intro h
    split at h
    · next ip hip =>
      exact .inl ⟨rfl, ip, IPv4.parse?_eq_some_iff.mp hip, (Option.some.inj h).symm⟩
    · obtain ⟨g, hg, rfl⟩ := Option.map_eq_some_iff.mp h
      exact .inr ⟨g, group?_eq_some_iff.mp hg, rfl⟩
  · rintro (⟨rfl, ip, hip, rfl⟩ | ⟨g, hg, rfl⟩)
    · rw [IPv4.parse?_eq_some_iff.mpr hip]
    · split
      · next ip hip => exact absurd hg (not_group_of_quad (IPv4.parse?_eq_some_iff.mp hip))
      · rw [group?_eq_some_iff.mpr hg]
        rfl

theorem fieldGroups?_of_groups {quad : Bool} {cs : List Char} {gs : List UInt16}
    (h : Groups quad cs gs) : fieldGroups? quad (fields ':' cs) = some gs := by
  induction h with
  | single hg =>
    rw [fields_of_notMem (colon_notMem_group hg)]
    exact fieldGroups?_single_iff.mpr (.inr ⟨_, hg, rfl⟩)
  | quad hquad hip =>
    rw [fields_of_notMem (colon_notMem_quad hip)]
    exact fieldGroups?_single_iff.mpr (.inl ⟨hquad, _, hip, rfl⟩)
  | @cons cs rest g gs hg hrest ih =>
    rw [fields_append (colon_notMem_group hg)]
    cases hfields : fields ':' rest with
    | nil => exact absurd hfields (fields_ne_nil ':' rest)
    | cons next pieces =>
      rw [fieldGroups?_cons, group?_eq_some_iff.mpr hg, ← hfields, ih]
      rfl

theorem groups_of_fieldGroups? {quad : Bool} (pieces : List (List Char)) :
    ∀ (cs : List Char) (gs : List UInt16), fields ':' cs = pieces →
      fieldGroups? quad pieces = some gs → Groups quad cs gs := by
  induction pieces with
  | nil => exact fun cs _ h _ => absurd h (fields_ne_nil ':' cs)
  | cons piece rest ih =>
    intro cs gs hfields h
    -- only the last field may be a quad
    cases rest with
    | nil =>
      obtain ⟨rfl, -⟩ := fields_eq_singleton_iff.mp hfields
      obtain ⟨hquad, ip, hip, rfl⟩ | ⟨g, hg, rfl⟩ := fieldGroups?_single_iff.mp h
      · exact .quad hquad hip
      · exact .single hg
    | cons next rest =>
      obtain ⟨tail, rfl, -, htail⟩ := fields_eq_cons_iff.mp hfields
      rw [fieldGroups?_cons] at h
      obtain ⟨g, hg, h⟩ := Option.bind_eq_some_iff.mp h
      obtain ⟨gs, hgs, rfl⟩ := Option.map_eq_some_iff.mp h
      exact .cons (group?_eq_some_iff.mp hg) (ih tail gs htail hgs)

/-- What is read as groups are the groups of a stretch. -/
theorem groups?_eq_some_iff {quad : Bool} {cs : List Char} {gs : List UInt16} :
    groups? quad cs = some gs ↔ Stretch quad cs gs := by
  cases cs with
  | nil =>
    constructor
    · intro h
      exact .inl ⟨rfl, (Option.some.inj h).symm⟩
    · rintro (⟨-, rfl⟩ | h)
      · rfl
      · obtain ⟨_, _, h, -⟩ := h.exists_cons
        cases h
  | cons c cs =>
    constructor
    · exact fun h => .inr (groups_of_fieldGroups? _ _ _ rfl h)
    · rintro (⟨h, -⟩ | h)
      · cases h
      · exact fieldGroups?_of_groups h

/-! The gap. -/

theorem eq_of_splitGap? {cs before after : List Char} (h : splitGap? cs = some (before, after)) :
    cs = before ++ ':' :: ':' :: after := by
  induction cs using splitGap?.induct generalizing before with
  | case1 rest =>
    obtain ⟨rfl, rfl⟩ := Prod.mk.inj (Option.some.inj h)
    rfl
  | case2 c rest hne ih =>
    rw [splitGap?] at h
    · obtain ⟨⟨front, back⟩, hsplit, heq⟩ := Option.map_eq_some_iff.mp h
      obtain ⟨rfl, rfl⟩ := Prod.mk.inj heq
      exact congrArg (c :: ·) (ih hsplit)
    · exact hne
  | case3 => cases h

theorem splitGap?_cons_of_ne {c : Char} (hc : c ≠ ':') (cs : List Char) :
    splitGap? (c :: cs) = (splitGap? cs).map fun (before, after) => (c :: before, after) := by
  rw [splitGap?]
  exact fun rest h => absurd h hc

theorem splitGap?_colon_of_ne {c : Char} (hc : c ≠ ':') (cs : List Char) :
    splitGap? (':' :: c :: cs)
      = (splitGap? (c :: cs)).map fun (before, after) => (':' :: before, after) := by
  rw [splitGap?]
  exact fun rest _ h => absurd (List.cons.inj h).1 hc

theorem splitGap?_append {cs : List Char} (h : ':' ∉ cs) (tail : List Char) :
    splitGap? (cs ++ tail) = (splitGap? tail).map fun (before, after) => (cs ++ before, after) := by
  induction cs with
  | nil => exact Option.map_id'.symm
  | cons c cs ih =>
    rw [List.mem_cons, not_or] at h
    rw [List.cons_append, splitGap?_cons_of_ne (Ne.symm h.1), ih h.2, Option.map_map]
    rfl

/-- There is no gap among groups, nor one that begins with a colon of theirs. -/
theorem splitGap?_groups {quad : Bool} {cs : List Char} {gs : List UInt16}
    (h : Groups quad cs gs) (tail : List Char) :
    splitGap? (cs ++ tail) = (splitGap? tail).map fun (before, after) => (cs ++ before, after) := by
  -- on the groups: single colons only, so that no gap begins among them
  induction h with
  | single hg => exact splitGap?_append (colon_notMem_group hg) tail
  | quad hquad hip => exact splitGap?_append (colon_notMem_quad hip) tail
  | @cons cs rest g gs hg hrest ih =>
    obtain ⟨c, rest', hrest', hc⟩ := hrest.exists_cons
    rw [List.append_assoc, splitGap?_append (colon_notMem_group hg), List.cons_append, hrest',
      List.cons_append, splitGap?_colon_of_ne hc, ← List.cons_append, ← hrest', ih, Option.map_map,
      Option.map_map]
    refine congrArg (Option.map · (splitGap? tail)) (funext fun p => ?_)
    show (cs ++ ':' :: (rest ++ p.1), p.2) = (cs ++ ':' :: rest ++ p.1, p.2)
    rw [List.append_assoc]
    rfl

/-- A stretch of groups ends where a gap begins. -/
theorem splitGap?_stretch {cs after : List Char} {gs : List UInt16} (h : Stretch false cs gs) :
    splitGap? (cs ++ ':' :: ':' :: after) = some (cs, after) := by
  rcases h with ⟨rfl, -⟩ | h
  · rfl
  · rw [splitGap?_groups h, splitGap?]
    exact congrArg some (Prod.ext (List.append_nil cs) rfl)

theorem ofList?_eq_some_iff {gs : List UInt16} {ip : IPv6} :
    ofList? gs = some ip ↔ ip.groups.toList = gs := by
  constructor
  · intro h
    unfold ofList? at h
    split at h
    · obtain rfl := Option.some.inj h
      rfl
    · cases h
  · rintro rfl
    rw [ofList?, dif_pos (Vector.length_toList)]
    rfl

/-- **Exactly the IPv6 literals are read.** -/
theorem parse?_eq_some_iff {cs : List Char} {ip : IPv6} : parse? cs = some ip ↔ Literal cs ip := by
  constructor
  · intro h
    unfold parse? at h
    -- without a gap all eight groups are written out
    split at h
    · obtain ⟨gs, hgs, hip⟩ := Option.bind_eq_some_iff.mp h
      have hlist := ofList?_eq_some_iff.mp hip
      rcases groups?_eq_some_iff.mp hgs with ⟨-, rfl⟩ | hgroups
      · exact absurd (congrArg List.length hlist) (by rw [Vector.length_toList]; decide)
      · exact .full (hlist ▸ hgroups)
    · next before after hsplit =>
      obtain ⟨high, hhigh, h⟩ := Option.bind_eq_some_iff.mp h
      obtain ⟨low, hlow, h⟩ := Option.bind_eq_some_iff.mp h
      split at h
      · next hle =>
        -- the gap stands for at least one group
        rw [eq_of_splitGap? hsplit]
        refine .gap (groups?_eq_some_iff.mp hhigh) (groups?_eq_some_iff.mp hlow) ?_
          (ofList?_eq_some_iff.mp h)
        omega
      · cases h
  · intro h
    cases h with
    | full h =>
      have hsplit : splitGap? cs = none := by
        have happend := splitGap?_groups h []
        rwa [List.append_nil] at happend
      rw [parse?, hsplit]
      dsimp only
      rw [groups?_eq_some_iff.mpr (.inr h)]
      exact ofList?_eq_some_iff.mpr rfl
    | @gap before after high low n ip hhigh hlow hn hip =>
      have hlen := congrArg List.length hip
      rw [Vector.length_toList, List.length_append, List.length_append, List.length_replicate]
        at hlen
      rw [parse?, splitGap?_stretch hhigh]
      dsimp only
      rw [groups?_eq_some_iff.mpr hhigh, groups?_eq_some_iff.mpr hlow]
      show (if high.length + low.length ≤ 7 then _ else none) = some ip
      rw [if_pos (by omega), ofList?_eq_some_iff, hip,
        show 8 - high.length - low.length = n by omega]

/-! The characters of a literal. -/

section

variable {quad : Bool} {cs : List Char} {gs : List UInt16} {c : Char}

/-- There are digits, colons and points among groups, and nothing else. -/
theorem Groups.notMem (h : Groups quad cs gs) (hcolon : c ≠ ':') (hpoint : c ≠ '.')
    (hc : ∀ d < 16, c ≠ d.digitChar ∧ c ≠ d.digitChar.toUpper) : c ∉ cs := by
  induction h with
  | single hg => exact hg.notMem hc
  | quad _ hip => exact hip.notMem hpoint fun d hd => (hc d (by omega)).1
  | cons hg _ ih =>
    simp only [List.mem_append, List.mem_cons, not_or]
    exact ⟨hg.notMem hc, hcolon, ih⟩

theorem Stretch.notMem (h : Stretch quad cs gs) (hcolon : c ≠ ':') (hpoint : c ≠ '.')
    (hc : ∀ d < 16, c ≠ d.digitChar ∧ c ≠ d.digitChar.toUpper) : c ∉ cs := by
  rcases h with ⟨rfl, -⟩ | h
  · exact List.not_mem_nil
  · exact h.notMem hcolon hpoint hc

theorem Literal.notMem {ip : IPv6} (h : Literal cs ip) (hcolon : c ≠ ':') (hpoint : c ≠ '.')
    (hc : ∀ d < 16, c ≠ d.digitChar ∧ c ≠ d.digitChar.toUpper) : c ∉ cs := by
  cases h with
  | full h => exact h.notMem hcolon hpoint hc
  | gap hhigh hlow _ _ =>
    simp only [List.mem_append, List.mem_cons, not_or]
    exact ⟨hhigh.notMem hcolon hpoint hc, hcolon, hcolon, hlow.notMem hcolon hpoint hc⟩

/-- A literal has a colon. -/
theorem Literal.colon_mem {ip : IPv6} (h : Literal cs ip) : ':' ∈ cs := by
  cases h with
  | full h =>
    have hlen : ip.groups.toList.length = 8 := Vector.length_toList
    generalize ip.groups.toList = gs at h hlen
    cases h with
    | single _ => cases hlen
    | quad _ _ => cases hlen
    | cons _ _ => exact List.mem_append_right _ List.mem_cons_self
  | gap _ _ _ _ => exact List.mem_append_right _ List.mem_cons_self

end

end IPv6

end EventLoop

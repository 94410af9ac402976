import EventLoop.Proofs.Slab.WellFormed
import EventLoop.System.Basic

/-!
# What registering does to the table

The table of registrations of a loop, before and after each operation on it.
Whether the multiplexer complies decides which of the two outcomes there is, and
nothing else about it matters here.

## Main results

* `registerAt_ok`, `registerAt_error` — the two outcomes of a registration.
* `get?_registerAt_ok`, `get?_registerAt_error` — **a registration that fails leaves every
  token as it was.**
* `table_deregister` — a token is free afterwards whatever the multiplexer says.
* `WellFormed` is kept by all four operations.
-/

namespace EventLoop
namespace Loop

variable {l l' : Loop} {fd : Option Nat} {token : Token} {i : Interest} {e : Failure}

@[simp] theorem table_withTable (l : Loop) (table : Slab Registration) :
    (l.withTable table).system.table = table := rfl

@[simp] theorem poller_withTable (l : Loop) (table : Slab Registration) :
    (l.withTable table).system.poller = l.system.poller := rfl

@[simp] theorem host_withTable (l : Loop) (table : Slab Registration) :
    (l.withTable table).host = l.host := rfl

@[simp] theorem system_note (l : Loop) (n : Notice) : (l.note n).system = l.system := rfl

/-! ### Registering -/

/-- A registration that succeeds: the entry was made, and the multiplexer complied. -/
theorem registerAt_ok (h : l.registerAt fd token i = (.ok (), l')) :
    token ≠ systemToken ∧ ∃ table host, l.system.table.insertAt token ⟨fd, i⟩ = .ok table ∧
      l.system.poller.add fd token i l.host = .ok host ∧
      l' = { (l.withTable table) with host := host } := by
  unfold registerAt at h
  split at h
  · cases h
  · next hne =>
    -- the table comes first, then the multiplexer
    cases hins : l.system.table.insertAt token ⟨fd, i⟩ with
    | error refusal => rw [hins] at h; cases h
    | ok table =>
      rw [hins] at h
      dsimp only at h
      cases hadd : l.system.poller.add fd token i l.host with
      | error e => rw [hadd] at h; cases h
      | ok host =>
        rw [hadd] at h
        cases h
        exact ⟨hne, table, host, rfl, rfl, rfl⟩

/-- A registration that fails: the token was reserved, the table refused, or the multiplexer
did and the entry was taken back. -/
theorem registerAt_error (h : l.registerAt fd token i = (.error e, l')) :
    (token = systemToken ∧ e = .reservedToken ∧ l' = l) ∨
      (∃ refusal, l.system.table.insertAt token ⟨fd, i⟩ = .error refusal ∧
        e = .table refusal ∧ l' = l) ∨
      ∃ table, l.system.table.insertAt token ⟨fd, i⟩ = .ok table ∧
        l.system.poller.add fd token i l.host = .error e ∧
        l' = l.withTable (table.remove token).2 := by
  unfold registerAt at h
  split at h
  · next heq =>
    cases h
    exact Or.inl ⟨heq, rfl, rfl⟩
  · cases hins : l.system.table.insertAt token ⟨fd, i⟩ with
    | error refusal =>
      rw [hins] at h
      cases h
      exact Or.inr (Or.inl ⟨refusal, rfl, rfl, rfl⟩)
    | ok table =>
      rw [hins] at h
      dsimp only at h
      cases hadd : l.system.poller.add fd token i l.host with
      | error e' =>
        -- what the table has taken is taken out again
        rw [hadd] at h
        cases h
        exact Or.inr (Or.inr ⟨table, rfl, rfl, rfl⟩)
      | ok host => rw [hadd] at h; cases h

theorem get?_registerAt_ok (h : l.registerAt fd token i = (.ok (), l')) (j : Token) :
    l'.system.table.get? j = if j = token then some ⟨fd, i⟩ else l.system.table.get? j := by
  obtain ⟨-, table, host, hins, -, rfl⟩ := registerAt_ok h
  exact Slab.get?_insertAt hins j

/-- A token that could be registered was free. -/
theorem vacant_of_registerAt_ok (h : l.registerAt fd token i = (.ok (), l')) :
    l.system.table.get? token = none := by
  obtain ⟨-, table, host, hins, -, -⟩ := registerAt_ok h
  exact (Slab.insertAt_ok hins).1

/-- **A registration that fails leaves every token as it was.** -/
theorem get?_registerAt_error (h : l.registerAt fd token i = (.error e, l')) (j : Token) :
    l'.system.table.get? j = l.system.table.get? j := by
  rcases registerAt_error h with ⟨-, -, rfl⟩ | ⟨-, -, -, rfl⟩ | ⟨table, hins, -, rfl⟩
  · rfl
  · rfl
  · exact Slab.get?_remove_insertAt hins j

theorem host_registerAt_error (h : l.registerAt fd token i = (.error e, l')) :
    l'.host = l.host := by
  rcases registerAt_error h with ⟨-, -, rfl⟩ | ⟨-, -, -, rfl⟩ | ⟨table, -, -, rfl⟩ <;> rfl

/-- `register` is `registerAt` with the next token. -/
theorem register_eq (l : Loop) (fd : Option Nat) (i : Interest) :
    l.register fd i = ((l.registerAt fd l.system.table.vacantKey i).1.map
        fun _ => l.system.table.vacantKey,
      (l.registerAt fd l.system.table.vacantKey i).2) := by
  unfold register
  dsimp only
  rcases l.registerAt fd l.system.table.vacantKey i with ⟨r, l'⟩
  cases r <;> rfl

theorem register_ok (h : l.register fd i = (.ok token, l')) :
    token = l.system.table.vacantKey ∧ l.registerAt fd token i = (.ok (), l') := by
  unfold register at h
  dsimp only at h
  rcases hr : l.registerAt fd l.system.table.vacantKey i with ⟨r, l''⟩
  rw [hr] at h
  cases r with
  | error e => cases h
  | ok u =>
    cases h
    exact ⟨rfl, hr⟩

/-! ### Changing and ending -/

theorem reregister_ok (h : l.reregister token i = (.ok (), l')) :
    ∃ r host, l.system.table.get? token = some r ∧
      l.system.poller.modify r.descriptor token i l.host = .ok host ∧
      l' = { (l.withTable (l.system.table.set token { r with interest := i })) with
        host := host } := by
  unfold reregister at h
  cases hr : l.system.table.get? token with
  | none => rw [hr] at h; cases h
  | some r =>
    rw [hr] at h
    dsimp only at h
    -- the table changes only after the multiplexer has agreed
    cases hmod : l.system.poller.modify r.descriptor token i l.host with
    | error e => rw [hmod] at h; cases h
    | ok host =>
      rw [hmod] at h
      cases h
      exact ⟨r, host, rfl, hmod, rfl⟩

theorem reregister_error (h : l.reregister token i = (.error e, l')) : l' = l := by
  unfold reregister at h
  cases hr : l.system.table.get? token with
  | none => rw [hr] at h; cases h; rfl
  | some r =>
    rw [hr] at h
    dsimp only at h
    cases hmod : l.system.poller.modify r.descriptor token i l.host with
    | error e => rw [hmod] at h; cases h; rfl
    | ok host => rw [hmod] at h; cases h

/-- The interest of one token changes; its descriptor stays. -/
theorem get?_reregister_ok {r : Registration} (h : l.reregister token i = (.ok (), l'))
    (hr : l.system.table.get? token = some r) (j : Token) :
    l'.system.table.get? j
      = if j = token then some { r with interest := i } else l.system.table.get? j := by
  obtain ⟨r', host, hr', -, rfl⟩ := reregister_ok h
  rw [hr] at hr'
  cases hr'
  have hc : l.system.table.contains token = true := Slab.contains_iff.mpr ⟨r, hr⟩
  change (l.system.table.set token { r with interest := i }).get? j = _
  simp only [Slab.get?_set, hc, and_true]

/-- A token that is not registered is none of its business. -/
theorem deregister_of_vacant (hr : l.system.table.get? token = none) :
    l.deregister token = (.ok (), l) := by
  unfold deregister
  rw [Slab.remove_none hr]

theorem host_deregister_ok {r : Registration} {host : Host}
    (hr : l.system.table.get? token = some r)
    (hrem : l.system.poller.remove r.descriptor l.host = .ok host) :
    (l.deregister token).2.host = host.note (.deregistered token) := by
  unfold deregister
  rw [Slab.remove_some hr]
  dsimp only
  rw [poller_withTable, host_withTable, hrem]

/-- Whatever the multiplexer says, the entry goes; only the host may change besides. -/
theorem deregister_eq (l : Loop) (token : Token) : ∃ host, (l.deregister token).2
    = { (l.withTable (l.system.table.remove token).2) with host := host } := by
  unfold deregister
  cases hr : l.system.table.get? token with
  | none =>
    rw [Slab.remove_none hr]
    exact ⟨l.host, rfl⟩
  | some r =>
    -- whatever the multiplexer answers, the token is free
    rw [Slab.remove_some hr]
    dsimp only
    split
    · exact ⟨_, rfl⟩
    · split
      · exact ⟨_, rfl⟩
      · exact ⟨_, rfl⟩

/-- **A token is free afterwards, whatever the multiplexer says.** -/
theorem table_deregister (l : Loop) (token : Token) :
    (l.deregister token).2.system.table = (l.system.table.remove token).2 := by
  obtain ⟨host, h⟩ := deregister_eq l token
  rw [h]
  rfl

theorem get?_deregister (l : Loop) (token j : Token) :
    (l.deregister token).2.system.table.get? j
      = if j = token then none else l.system.table.get? j := by
  rw [table_deregister, Slab.get?_remove]

/-! ### What stays -/

/-- Everything about a loop but its registrations and its host. -/
structure SameFrame (l l' : Loop) : Prop where
  /-- The multiplexer is the same. -/
  poller_eq : l'.system.poller = l.system.poller
  /-- The control channel is the same. -/
  control_eq : l'.system.control = l.system.control
  /-- The ceiling on registrations is the same. -/
  policy_eq : l'.system.table.policy = l.system.table.policy
  /-- The first token is the same. -/
  offset_eq : l'.system.table.offset = l.system.table.offset

namespace SameFrame

theorem of_system_eq (h : l'.system = l.system) : SameFrame l l' := by
  constructor <;> rw [h]

theorem refl (l : Loop) : SameFrame l l := of_system_eq rfl

theorem trans {l'' : Loop} (h : SameFrame l l') (h' : SameFrame l' l'') : SameFrame l l'' where
  poller_eq := h'.poller_eq.trans h.poller_eq
  control_eq := h'.control_eq.trans h.control_eq
  policy_eq := h'.policy_eq.trans h.policy_eq
  offset_eq := h'.offset_eq.trans h.offset_eq

end SameFrame

theorem sameFrame_registerAt (l : Loop) (fd : Option Nat) (token : Token) (i : Interest) :
    SameFrame l (l.registerAt fd token i).2 := by
  rcases h : l.registerAt fd token i with ⟨r, l'⟩
  cases r with
  | ok u =>
    obtain ⟨-, table, host, hins, -, rfl⟩ := registerAt_ok h
    exact ⟨rfl, rfl, Slab.policy_insertAt hins, Slab.offset_insertAt hins⟩
  | error e =>
    rcases registerAt_error h with ⟨-, -, rfl⟩ | ⟨-, -, -, rfl⟩ | ⟨table, hins, -, rfl⟩
    · exact .refl _
    · exact .refl _
    -- it was entered and taken out again
    · refine ⟨rfl, rfl, ?_, ?_⟩
      · rw [table_withTable, Slab.policy_remove, Slab.policy_insertAt hins]
      · rw [table_withTable, Slab.offset_remove, Slab.offset_insertAt hins]

theorem sameFrame_register (l : Loop) (fd : Option Nat) (i : Interest) :
    SameFrame l (l.register fd i).2 := by
  rw [register_eq]
  exact sameFrame_registerAt l fd _ i

theorem sameFrame_reregister (l : Loop) (token : Token) (i : Interest) :
    SameFrame l (l.reregister token i).2 := by
  rcases h : l.reregister token i with ⟨r, l'⟩
  cases r with
  | ok u =>
    obtain ⟨r, host, -, -, rfl⟩ := reregister_ok h
    exact ⟨rfl, rfl, Slab.policy_set _ _ _, Slab.offset_set _ _ _⟩
  | error e =>
    rw [reregister_error h]
    exact .refl l

theorem sameFrame_deregister (l : Loop) (token : Token) :
    SameFrame l (l.deregister token).2 := by
  obtain ⟨host, h⟩ := deregister_eq l token
  rw [h]
  exact ⟨rfl, rfl, Slab.policy_remove _ _, Slab.offset_remove _ _⟩

/-! ### Well-formed tables -/

theorem wellFormed_registerAt (hl : l.system.table.WellFormed) (fd : Option Nat) (token : Token)
    (i : Interest) : (l.registerAt fd token i).2.system.table.WellFormed := by
  rcases h : l.registerAt fd token i with ⟨r, l'⟩
  cases r with
  | ok u =>
    obtain ⟨-, table, host, hins, -, rfl⟩ := registerAt_ok h
    exact hl.insertAt hins
  | error e =>
    rcases registerAt_error h with ⟨-, -, rfl⟩ | ⟨-, -, -, rfl⟩ | ⟨table, hins, -, rfl⟩
    · exact hl
    · exact hl
    · exact (hl.insertAt hins).remove token

theorem wellFormed_register (hl : l.system.table.WellFormed) (fd : Option Nat) (i : Interest) :
    (l.register fd i).2.system.table.WellFormed := by
  rw [register_eq]
  exact wellFormed_registerAt hl fd _ i

theorem wellFormed_reregister (hl : l.system.table.WellFormed) (token : Token) (i : Interest) :
    (l.reregister token i).2.system.table.WellFormed := by
  rcases h : l.reregister token i with ⟨r, l'⟩
  cases r with
  | ok u =>
    obtain ⟨r, host, -, -, rfl⟩ := reregister_ok h
    exact hl.set token _
  | error e =>
    rw [reregister_error h]
    exact hl

theorem wellFormed_deregister (hl : l.system.table.WellFormed) (token : Token) :
    (l.deregister token).2.system.table.WellFormed := by
  rw [table_deregister]
  exact hl.remove token

end Loop
end EventLoop

import EventLoop.Proofs.Registration.Table
import EventLoop.Proofs.Slab.Reuse

/-!
# Claiming the next key

An entry can be stored under the next key in two ways: the table is left to choose
the key, or it is asked for the next key and told to use that one.  The table takes
a key of its own choice off the front of its free keys, or moves the mark on by one.
A key it is told to use it strikes off the free keys wherever it stands there, or it
frees whatever lies between the mark and that key.  Both come to the same for the
next key, because no key is free twice and no free key is live or fresh.

## Main results

* `WellFormed.claim_vacantKey` — what claiming the next key does to free keys and mark.
* `WellFormed.insertAt_vacantKey` — **storing under the next key is adding an entry.**
* `serveAll_insertAt_vacantKey` — the same after any requests, and how it can end.
* `Loop.register_eq_of_insert` — a loop registers under the key its table would choose.
-/

namespace EventLoop
namespace Slab

variable {α : Type} {s : Slab α}

namespace WellFormed

/-- Claiming the next key takes it off the front of the free keys; if there are none, the mark
moves past it. -/
theorem claim_vacantKey (hs : s.WellFormed) :
    s.claim s.vacantKey = match s.free with
      | [] => { s with next := s.next + 1 }
      | _ :: rest => { s with free := rest } := by
  cases hf : s.free with
  | nil =>
    -- the next key is the mark, and nothing lies in between
    have hkey : s.vacantKey = s.next := by simp [vacantKey, hf]
    rw [hkey, Slab.claim, if_pos (Nat.le_refl _), Nat.sub_self]
    simp [hf]
  | cons key rest =>
    have hmem : key ∈ s.free := by simp [hf]
    have hkey : s.vacantKey = key := by simp [vacantKey, hf]
    have hnot : key ∉ rest := (List.nodup_cons.mp (hf ▸ hs.free_nodup)).1
    have hlt := hs.free_lt_next key hmem
    rw [hkey, Slab.claim, if_neg (by omega), if_pos (hs.offset_le_of_free key hmem), hf,
      List.filter_cons, if_neg (by simp), filter_ne_of_notMem hnot]

/-- Adding an entry is claiming the next key and storing under it. -/
theorem insert_eq_claim (hs : s.WellFormed) (v : α) :
    s.insert v = if s.policy.admits s.live then
      .ok (s.vacantKey, (s.claim s.vacantKey).place s.vacantKey v) else .error .full := by
  rw [hs.claim_vacantKey]
  unfold Slab.insert vacantKey
  cases s.free <;> rfl

/-- **Storing under the next key is adding an entry.** -/
theorem insertAt_vacantKey (hs : s.WellFormed) (v : α) :
    s.insertAt s.vacantKey v = (s.insert v).map (·.2) := by
  have hvacant : s.contains s.vacantKey = false := contains_eq_false_iff.mpr hs.get?_vacantKey
  rw [hs.insert_eq_claim, Slab.insertAt, hvacant, if_neg Bool.false_ne_true]
  split <;> rfl

end WellFormed

/-- **After any requests, storing under the next key is adding an entry**: either both are refused
because the table is full, or both store the entry under that key and leave the same table,
down to its slots, its free keys, its mark and its count. -/
theorem serveAll_insertAt_vacantKey (offset : Nat) (policy : Capacity)
    (requests : List (Request α)) (v : α) :
    let s := ((empty offset policy).serveAll requests).2
    (s.insertAt s.vacantKey v = .error .full ∧ s.insert v = .error .full) ∨
      ∃ t, s.insertAt s.vacantKey v = .ok t ∧ s.insert v = .ok (s.vacantKey, t) := by
  intro s
  have hs : s.WellFormed := (Told.of_serveAll offset policy requests).wellFormed
  rw [hs.insertAt_vacantKey]
  cases hins : s.insert v with
  | error why =>
    obtain ⟨rfl, -⟩ := insert_error hins
    exact Or.inl ⟨rfl, rfl⟩
  | ok r =>
    obtain ⟨key, t⟩ := r
    rw [← key_of_insert hins]
    exact Or.inr ⟨t, rfl, rfl⟩

end Slab

/-! ### Registrations -/

/-- A loop asks its table for the next token and claims that one, and so it registers under the
token the table would have chosen; a table that is full refuses, and the multiplexer may do so
after it. -/
theorem Loop.register_eq_of_insert {l : Loop} (hl : l.system.table.WellFormed)
    (hroom : l.system.table.vacantKey ≠ systemToken) (fd : Option Nat) (i : Interest) :
    l.register fd i = match l.system.table.insert ⟨fd, i⟩ with
      | .error refusal => (.error (.table refusal), l)
      | .ok (token, table) =>
        match l.system.poller.add fd token i l.host with
        | .ok host => (.ok token, { l.withTable table with host := host })
        | .error e => (.error e, l.withTable (table.remove token).2) := by
  rw [register_eq, registerAt, if_neg hroom, hl.insertAt_vacantKey]
  cases hins : l.system.table.insert ⟨fd, i⟩ with
  | error refusal => rfl
  | ok r =>
    obtain ⟨token, table⟩ := r
    rw [← Slab.key_of_insert hins]
    dsimp only [Except.map]
    cases l.system.poller.add fd token i l.host <;> rfl

end EventLoop

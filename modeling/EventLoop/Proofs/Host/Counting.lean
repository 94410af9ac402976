import EventLoop.Proofs.Producer.Bell

/-!
# What a counter remembers

A write to a counter is taken, put off because the counter is too full for it, or illegal.
Only the last is reported as a failure: a counter too full for one more write is not empty,
so that whoever is to be woken by it is woken anyway.  A read takes all there is.

So a counter remembers no more than the sum of the writes that it took since it was last
read.  Neither is a write that was put off made up for later, nor does the sum ever pass
the largest count, let alone wrap.

## Main definitions

* `Counter.Act`, `Counter.run` — writes and reads, and what came of them, latest first.
* `Counter.sinceRead`, `Counter.taken` — what was written since the last read, and the sum
  of what the counter took of it.
* `Counter.Accounts` — the invariant: what a counter has to do with its past.
* `Notifier.performAll` — the same acts on a flag.

## Main results

* `signal_cases` — the three things that can come of a write.
* `Accounts.act` — **an act keeps the account.**
* `isSet_performAll` — a flag is set exactly while its counter is not empty.
* `count_spec` — what a counter, and a flag made of it, tell after any acts.
-/

namespace EventLoop
namespace Counter

/-! ### Writes -/

/-- What can come of a write: it is illegal and refused, it is taken, or the counter is too full
for it. -/
theorem signal_cases (c : Counter) (n : Nat) :
    (UInt64.size - 1 ≤ n ∧ c.signal n = (false, c) ∧ (c.add n).isOk = false) ∨
      ((c.signal n).1 = true ∧ (c.signal n).2.value = c.value + n ∧ (c.add n).isOk = true) ∨
      (0 < c.value ∧ c.signal n = (true, c) ∧ (c.add n).isOk = false) := by
  by_cases hlegal : UInt64.size - 1 ≤ n
  · have hadd : c.add n = .error .invalid := if_pos hlegal
    refine Or.inl ⟨hlegal, ?_⟩
    rw [signal, hadd]
    exact ⟨rfl, rfl⟩
  · by_cases hroom : c.value + n ≤ max
    · have hadd : c.add n = .ok ⟨c.value + n, hroom⟩ := by rw [add, if_neg hlegal, dif_pos hroom]
      refine Or.inr (Or.inl ?_)
      rw [signal, hadd]
      exact ⟨rfl, rfl, rfl⟩
    · have hadd : c.add n = .error .wouldBlock := by rw [add, if_neg hlegal, dif_neg hroom]
      -- no legal write is too much for an empty counter
      have hpos : 0 < c.value := by
        unfold max at hroom
        omega
      refine Or.inr (Or.inr ⟨hpos, ?_⟩)
      rw [signal, hadd]
      exact ⟨rfl, rfl⟩

/-- A counter takes what is legal and fits. -/
theorem isOk_add_iff (c : Counter) (n : Nat) :
    (c.add n).isOk = true ↔ n < UInt64.size - 1 ∧ c.value + n ≤ max := by
  by_cases hlegal : UInt64.size - 1 ≤ n
  · have hadd : c.add n = .error .invalid := if_pos hlegal
    rw [hadd]
    exact iff_of_false Bool.false_ne_true fun h => Nat.not_lt_of_le hlegal h.1
  · rw [add, if_neg hlegal]
    split
    · next hroom => exact iff_of_true rfl ⟨Nat.lt_of_not_le hlegal, hroom⟩
    · next hroom => exact iff_of_false Bool.false_ne_true fun h => hroom h.2

/-! ### Acts -/

/-- What can be done to a counter. -/
inductive Act
  /-- Add an amount to it. -/
  | write (n : Nat)
  /-- Take the whole count. -/
  | read
  deriving DecidableEq, Repr

/-- What came of an act. -/
inductive Line
  /-- An amount was written: what the writer was told, and whether the counter took it. -/
  | written (n : Nat) (told took : Bool)
  /-- The count was taken. -/
  | read (count : Nat)
  deriving DecidableEq, Repr

/-- Was something written? -/
def Line.isWritten : Line → Bool
  | .written .. => true
  | .read _ => false

/-- Does an act to a counter. -/
def act (c : Counter) : Act → Line × Counter
  | .write n => (.written n (c.signal n).1 (c.add n).isOk, (c.signal n).2)
  | .read => (.read c.drain.1, c.drain.2)

/-- Does one act after the other, and writes down what comes of them, latest first. -/
def run (past : List Line) (c : Counter) : List Act → List Line × Counter
  | [] => (past, c)
  | a :: acts => run ((c.act a).1 :: past) (c.act a).2 acts

/-- What was written since the last read, latest first. -/
def sinceRead (past : List Line) : List Line := past.takeWhile Line.isWritten

/-- How much the counter took since the last read. -/
def taken : List Line → Nat
  | .written n _ took :: past => (if took then n else 0) + taken past
  | _ => 0

variable {c : Counter} {past : List Line} {n count : Nat} {told took : Bool}

@[simp] theorem sinceRead_written :
    sinceRead (.written n told took :: past) = .written n told took :: sinceRead past := rfl

@[simp] theorem sinceRead_read : sinceRead (.read count :: past) = [] := rfl

@[simp] theorem taken_read : taken (.read count :: past) = 0 := rfl

@[simp] theorem taken_took : taken (.written n told true :: past) = n + taken past := by
  simp [taken]

@[simp] theorem taken_refused : taken (.written n told false :: past) = taken past := by
  simp [taken]

theorem run_append (acts more : List Act) : ∀ (past : List Line) (c : Counter),
    run past c (acts ++ more) = run (run past c acts).1 (run past c acts).2 more := by
  induction acts with
  | nil => exact fun _ _ => rfl
  | cons a acts ih => exact fun past c => ih _ _

/-- What was written is written since the last read, until the next one. -/
theorem mem_sinceRead_run {line : Line} (acts : List Act) (hacts : .read ∉ acts) :
    ∀ {past : List Line} {c : Counter}, line ∈ sinceRead past →
      line ∈ sinceRead (run past c acts).1 := by
  induction acts with
  | nil => exact fun h => h
  | cons a acts ih =>
    intro past c h
    obtain ⟨ha, hrest⟩ := not_or.mp (mt List.mem_cons.mpr hacts)
    cases a with
    | write n => exact ih hrest (List.mem_cons_of_mem _ h)
    | read => exact absurd rfl ha

/-! ### The account -/

/-- What a counter has to do with its past: it holds what it took since it was read, and it holds
something if a writer of something was told so since. -/
structure Accounts (past : List Line) (c : Counter) : Prop where
  value_eq : c.value = taken past
  pos_of_told : ∀ n took, .written n true took ∈ sinceRead past → 0 < n → 0 < c.value

theorem Accounts.start : Accounts [] zero where
  value_eq := rfl
  pos_of_told n took h := by simp [sinceRead] at h

/-- **An act keeps the account.** -/
theorem Accounts.act (h : Accounts past c) (a : Act) :
    Accounts ((c.act a).1 :: past) (c.act a).2 := by
  have hvalue := h.value_eq
  cases a with
  | read => exact ⟨rfl, fun n took hmem => by simp [Counter.act] at hmem⟩
  | write n =>
    simp only [Counter.act]
    rcases c.signal_cases n with ⟨-, hs, hk⟩ | ⟨ht, hs, hk⟩ | ⟨hpos, hs, hk⟩
    · -- refused: the writer is told, and the counter is as it was
      rw [hs, hk]
      refine ⟨by simpa using hvalue, fun m took hmem hm => ?_⟩
      simp only [sinceRead_written, List.mem_cons, Line.written.injEq] at hmem
      rcases hmem with ⟨-, hfalse, -⟩ | hmem
      · cases hfalse
      · exact h.pos_of_told m took hmem hm
    · rw [ht, hk]
      refine ⟨by rw [hs, taken_took]; omega, fun m took hmem hm => ?_⟩
      simp only [sinceRead_written, List.mem_cons, Line.written.injEq] at hmem
      rcases hmem with ⟨rfl, -, -⟩ | hmem
      · omega
      · have := h.pos_of_told m took hmem hm
        omega
    · -- too full: the writer is told nothing of it, and somebody is woken anyway
      rw [hs, hk]
      exact ⟨by simpa using hvalue, fun _ _ _ _ => hpos⟩

theorem Accounts.run (acts : List Act) : ∀ {past : List Line} {c : Counter}, Accounts past c →
    Accounts (run past c acts).1 (run past c acts).2 := by
  induction acts with
  | nil => exact fun h => h
  | cons a acts ih => exact fun h => ih (h.act a)

/-- Whoever was told so has written to a counter that holds something, until it is read. -/
theorem Accounts.pos_of_write (h : Accounts past c) (hn : 0 < n) (ht : (c.signal n).1 = true)
    {later : List Act} (hlater : .read ∉ later) :
    0 < (Counter.run past c (.write n :: later)).2.value := by
  have hafter := (h.act (.write n)).run later
  refine hafter.pos_of_told n (c.add n).isOk (mem_sinceRead_run later hlater ?_) hn
  simp [Counter.act, ht]

/-- A write of one is never refused. -/
theorem signal_one (c : Counter) : (c.signal 1).1 = true := by
  rcases c.signal_cases 1 with ⟨hlegal, -⟩ | ⟨ht, -⟩ | ⟨-, hs, -⟩
  · exact absurd hlegal (by decide)
  · exact ht
  · rw [hs]

/-- A write that is reported as a failure changes nothing, and the counter took none of it. -/
theorem signal_of_refused (h : (c.signal n).1 = false) :
    (c.signal n).2 = c ∧ (c.add n).isOk = false := by
  rcases c.signal_cases n with ⟨-, hs, hk⟩ | ⟨ht, -⟩ | ⟨-, hs, hk⟩
  · exact ⟨by rw [hs], hk⟩
  · rw [ht] at h
    cases h
  · exact ⟨by rw [hs], hk⟩

end Counter

/-! ### Flags -/

namespace Notifier

variable {f : Notifier} {h : Host} {c : Counter}

/-- Does an act to a flag. -/
def perform (f : Notifier) : Counter.Act → Host → Host
  | .write n, h => f.signal n h
  | .read, h => f.clear h

/-- Does one act after the other to a flag. -/
def performAll (f : Notifier) (acts : List Counter.Act) (h : Host) : Host :=
  acts.foldl (fun h a => f.perform a h) h

/-- An act to a flag is one to its counter. -/
theorem objectOf?_perform (ho : h.objectOf? f.descriptor = some (.counter c)) (a : Counter.Act) :
    (f.perform a h).objectOf? f.descriptor = some (.counter (c.act a).2) := by
  cases hd : f.descriptor with
  | none =>
    rw [hd] at ho
    cases ho
  | some fd =>
    rw [hd, Host.objectOf?_some] at ho
    cases a with
    | write n =>
      simp only [perform, signal, hd, ho, Host.objectOf?_some]
      rw [Host.object?_setObject ho, if_pos rfl]
      rfl
    | read =>
      simp only [perform, clear, hd, ho, Host.objectOf?_some]
      rw [Host.object?_setObject ho, if_pos rfl]
      rfl

/-- **A flag is set exactly while its counter is not empty.** -/
theorem isSet_performAll (acts : List Counter.Act) : ∀ {h : Host} {c : Counter},
    h.objectOf? f.descriptor = some (.counter c) → ∀ past,
      f.isSet (f.performAll acts h) = (c.run past acts).2.isReadable := by
  induction acts with
  | nil => exact fun ho _ => Host.isReadable_counter ho
  | cons a acts ih => exact fun ho past => ih (objectOf?_perform ho a) _

/-- A flag that was set stays so as long as nobody clears it, however often it is set besides. -/
theorem isSet_of_set (ho : h.objectOf? f.descriptor = some (.counter .zero))
    (before : List Counter.Act) {later : List Counter.Act} (hlater : .read ∉ later) :
    f.isSet (f.performAll (before ++ .write 1 :: later) h) = true := by
  have hpos := (Counter.Accounts.start.run before).pos_of_write Nat.one_pos
    (Counter.signal_one _) hlater
  rw [isSet_performAll _ ho [], Counter.run_append, Counter.isReadable]
  exact decide_eq_true hpos

theorem isSet_of_clear (ho : h.objectOf? f.descriptor = some (.counter .zero))
    (before : List Counter.Act) : f.isSet (f.performAll (before ++ [.read]) h) = false := by
  rw [isSet_performAll _ ho [], Counter.run_append]
  rfl

end Notifier

/-- **What a counter, and a flag made of it, tell after any acts.** It is readable if something was
written since the last read and the writer was told so. A write reported as a failure changes
nothing. A read gives the sum of what the counter took since it was last read; a write is taken if
it is legal and that sum stays within the largest count. And a new flag is readable from the time it
is set until it is cleared, however often it is set. -/
theorem Counter.count_spec (acts : List Counter.Act) :
    let past := (run [] zero acts).1
    let c := (run [] zero acts).2
    (∀ n took, .written n true took ∈ sinceRead past → 0 < n → c.isReadable = true) ∧
      (∀ n, (c.signal n).1 = false → (c.signal n).2 = c ∧ (c.add n).isOk = false) ∧
      c.drain = (taken past, zero) ∧ taken past ≤ max ∧
      (∀ n, (c.add n).isOk = true ↔ n < UInt64.size - 1 ∧ taken past + n ≤ max) ∧
      ∀ (f : Notifier) (h : Host), h.objectOf? f.descriptor = some (.counter zero) →
        f.isSet (f.performAll acts h) = c.isReadable ∧
        (∀ before later, acts = before ++ .write 1 :: later → .read ∉ later →
          f.isSet (f.performAll acts h) = true) ∧
        ∀ before, acts = before ++ [.read] → f.isSet (f.performAll acts h) = false := by
  intro past c
  have haccounts : Accounts past c := Accounts.start.run acts
  refine ⟨fun n took hmem hn => decide_eq_true (haccounts.pos_of_told n took hmem hn),
    fun n => signal_of_refused, ?_, ?_, fun n => ?_,
    fun f h ho => ⟨f.isSet_performAll acts ho [], ?_, ?_⟩⟩
  · rw [drain, haccounts.value_eq]
  · rw [← haccounts.value_eq]
    exact c.value_le_max
  · rw [← haccounts.value_eq]
    exact c.isOk_add_iff n
  · rintro before later rfl hlater
    exact f.isSet_of_set ho before hlater
  · rintro before rfl
    exact f.isSet_of_clear ho before

/-- A counter that is full from the first write on, and a flag that is set once more after it. -/
def Counter.crowded : List Counter.Act := [.write max, .write 5, .write 1]

theorem Counter.count_spec_crowded :
    .written 5 true false ∈ sinceRead (run [] zero crowded).1 ∧ 0 < 5 ∧
      (run [] zero crowded).2.isReadable = true ∧ (run [] zero crowded).2.drain.1 = max ∧
      Loop.Registering.smallHost.objectOf? (some 0) = some (.counter zero) ∧
      (⟨some 0⟩ : Notifier).isSet
        (Notifier.performAll ⟨some 0⟩ crowded Loop.Registering.smallHost) = true := by
  have hline : .written 5 true false ∈ sinceRead (run [] zero crowded).1 := by decide
  have hopen : Loop.Registering.smallHost.objectOf? (some 0) = some (.counter zero) := rfl
  obtain ⟨hreadable, -, hdrain, -, -, hflag⟩ := count_spec crowded
  refine ⟨hline, by decide, hreadable 5 false hline (by decide), ?_, hopen,
    (hflag ⟨some 0⟩ _ hopen).2.1 [.write max, .write 5] [] rfl (by simp)⟩
  rw [hdrain]
  decide

end EventLoop

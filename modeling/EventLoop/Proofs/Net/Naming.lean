import EventLoop.Net.Listener

/-!
# Paths and socket files

A path is followed through directories that every host has, so the entry it leads to
does not depend on what files there are.  The calls that take the path of a socket
are then about that entry: a listener can be bound if there is no file, whatever
file is there can be unlinked, and either changes this one file only.

A listener over a path makes the file when it is bound and removes it when it goes.
What it removes is the file at its path by then, whoever made it.

## Main definitions

* `Path.LeadsTo` — the entry that a path leads to, at which there may be a file.

## Main results

* `Path.vacancy_eq_ok_iff`, `Path.removable_eq_ok_iff`, `Host.hasFile_iff` — calls that take
  a path, by the entry it leads to.
* `Host.isFile_unlink_iff`, `Host.isFile_close` — what unlinking removes, and that closing a
  descriptor removes nothing.
* `Listener.isFile_bindUnix`, `Listener.isFile_close_iff` — **the files a listener makes and
  removes**; `Listener.isFile_bindUnix_error`: there are none if it cannot be bound.
-/

namespace EventLoop

/-! ### Paths -/

namespace Entry

variable {isFile : Entry → Bool} {e e' : Entry}

/-- What every host has is a directory or a device. -/
theorem standing?_ne_file : e.standing? ≠ some (.file e') := by
  unfold standing?
  split
  · simp
  · split <;> simp

theorem node?_eq_directory_iff {d : Directory} :
    e.node? isFile = some (.directory d) ↔ e.standing? = some (.directory d) := by
  unfold node?
  cases e.standing? with
  | some n => rfl
  | none => cases isFile e <;> simp

theorem node?_eq_none_iff : e.node? isFile = none ↔ e.standing? = none ∧ isFile e = false := by
  unfold node?
  cases e.standing? with
  | some n => simp
  | none => cases isFile e <;> simp

theorem node?_eq_file_iff :
    e.node? isFile = some (.file e') ↔ e.standing? = none ∧ isFile e = true ∧ e' = e := by
  unfold node?
  cases hs : e.standing? with
  | some n =>
    have hne : n ≠ .file e' := fun h => standing?_ne_file (hs.trans (congrArg some h))
    simp [hne]
  | none => cases isFile e <;> simp [eq_comm]

end Entry

namespace Path

variable {isFile isFile' : Entry → Bool} {path : String} {e e' : Entry}

/-- Where a path ends does not depend on what files there are. -/
theorem descend_congr (parts : List String) : ∀ {here : Directory} {ending : Ending},
    descend isFile here parts = .ok ending → descend isFile' here parts = .ok ending := by
  induction parts with
  | nil =>
    intro here ending h
    exact h
  | cons name rest ih =>
    intro here ending h
    unfold descend at h ⊢
    split at h
    next hdot =>
      rw [if_pos hdot]
      exact ih h
    next hdot =>
      rw [if_neg hdot]
      split at h
      next hup =>
        rw [if_pos hup]
        exact ih h
      next hup =>
        rw [if_neg hup]
        split at h
        next => cases h
        next hlong =>
          rw [if_neg hlong]
          split at h
          next hlast =>
            rw [if_pos hlast]
            exact h
          next hlast =>
            rw [if_neg hlast]
            -- whatever is on the way is a directory, so every host has it
            split at h
            next d hd =>
              rw [Entry.node?_eq_directory_iff.mpr (Entry.node?_eq_directory_iff.mp hd)]
              exact ih h
            next => cases h
            next => cases h

theorem walk_congr {p : Path} {ending : Ending} (h : p.walk isFile = .ok ending) :
    p.walk isFile' = .ok ending :=
  descend_congr p.parts h

/-- A path leads to an entry at which there may be a file. -/
structure LeadsTo (path : String) (e : Entry) : Prop where
  walk : ∃ p, read path = .ok p ∧ p.slashed = false ∧ p.walk (fun _ => false) = .ok (.entry e)
  standing : e.standing? = none

theorem LeadsTo.unique (h : LeadsTo path e) (h' : LeadsTo path e') : e = e' := by
  obtain ⟨p, hp, -, hw⟩ := h.walk
  obtain ⟨p', hp', -, hw'⟩ := h'.walk
  cases hp.symm.trans hp'
  cases hw.symm.trans hw'
  rfl

/-- A call follows a path to its end before it looks at what is there. -/
theorem follow_eq_ok_iff {β : Type} {f : Path → Ending → Except Errno β} {r : β} :
    (read path >>= fun p => p.walk isFile >>= f p) = .ok r ↔
      ∃ p ending, read path = .ok p ∧ p.walk isFile = .ok ending ∧ f p ending = .ok r := by
  cases hr : read path with
  | error _ => simp [bind, Except.bind]
  | ok p =>
    cases hw : p.walk isFile with
    | error _ => simp [hw, bind, Except.bind]
    | ok ending => simp [hw, bind, Except.bind]

/-- A file can be made where a path leads to an entry without one. -/
theorem vacancy_eq_ok_iff :
    vacancy isFile path = .ok e ↔ LeadsTo path e ∧ isFile e = false := by
  -- a path with a trailing slash names no file to be made
  refine follow_eq_ok_iff.trans ⟨?_, ?_⟩
  · rintro ⟨p, ending, hr, hw, h⟩
    cases ending with
    | directory d => cases h
    | entry e' =>
      dsimp only at h
      cases hn : e'.node? isFile with
      | some n => simp [hn] at h
      | none =>
        obtain ⟨hstand, hf⟩ := Entry.node?_eq_none_iff.mp hn
        cases hs : p.slashed with
        | true => simp [hn, hs] at h
        | false =>
          simp only [hn, hs, Option.isSome_none, Bool.false_eq_true, if_false,
            Except.ok.injEq] at h
          subst h
          exact ⟨⟨⟨p, hr, hs, walk_congr hw⟩, hstand⟩, hf⟩
  · rintro ⟨⟨⟨p, hr, hs, hw⟩, hstand⟩, hf⟩
    refine ⟨p, .entry e, hr, walk_congr hw, ?_⟩
    simp [Entry.node?_eq_none_iff.mpr ⟨hstand, hf⟩, hs]

/-- A file can be removed where a path leads to an entry with one. -/
theorem removable_eq_ok_iff :
    removable isFile path = .ok e ↔ LeadsTo path e ∧ isFile e = true := by
  refine follow_eq_ok_iff.trans ⟨?_, ?_⟩
  · rintro ⟨p, ending, hr, hw, h⟩
    cases ending with
    | directory d => cases h
    | entry e' =>
      dsimp only at h
      cases hn : e'.node? isFile with
      | none => simp [hn] at h
      | some n =>
        cases n with
        | directory d => simp [hn] at h
        | device => simp [hn] at h
        | file e'' =>
          obtain ⟨hstand, hf, rfl⟩ := Entry.node?_eq_file_iff.mp hn
          cases hs : p.slashed with
          | true => simp [hn, hs] at h
          | false =>
            simp only [hn, hs, Bool.false_eq_true, if_false, Except.ok.injEq] at h
            subst h
            exact ⟨⟨⟨p, hr, hs, walk_congr hw⟩, hstand⟩, hf⟩
  · rintro ⟨⟨⟨p, hr, hs, hw⟩, hstand⟩, hf⟩
    refine ⟨p, .entry e, hr, walk_congr hw, ?_⟩
    simp [Entry.node?_eq_file_iff.mpr ⟨hstand, hf, rfl⟩, hs]

/-- Something is found where a path leads to an entry, if there is a file. -/
theorem isOk_find_iff (h : LeadsTo path e) : (find isFile path).isOk = true ↔ isFile e = true := by
  obtain ⟨⟨p, hr, hs, hw⟩, hstand⟩ := h
  have hw' : p.walk isFile = .ok (.entry e) := walk_congr hw
  unfold find
  cases hf : isFile e with
  | true =>
    have hn := Entry.node?_eq_file_iff.mpr ⟨hstand, hf, rfl⟩
    simp [hr, hs, hw', hn, bind, Except.bind, Except.isOk, Except.toBool]
  | false =>
    have hn := Entry.node?_eq_none_iff.mpr ⟨hstand, hf⟩
    simp [hr, hw', hn, bind, Except.bind, Except.isOk, Except.toBool]

/-- A name outside the file system leads to no entry. -/
theorem not_leadsTo_of_isDetached (h : Host.isDetached path = true) : ¬LeadsTo path e := by
  rintro ⟨⟨p, hr, -⟩, -⟩
  have hempty : chars path = [] := by
    obtain ⟨rest, hrest⟩ := String.startsWith_string_iff.mp h
    unfold chars
    rw [← hrest]
    rfl
  unfold read at hr
  rw [hempty] at hr
  cases hr

end Path

/-! ### Files -/

namespace Host

variable {h h' : Host} {path : String} {e : Entry} {fd : Nat}

theorem hasFile_iff (hp : Path.LeadsTo path e) : h.hasFile path = true ↔ h.isFile e = true :=
  Path.isOk_find_iff hp

theorem isFile_iff : h.isFile e = true ↔ ∃ owner, (.file e, owner) ∈ h.names := by
  unfold isFile isNamed
  simp

/-- What is unlinked is gone, and everything else stays. -/
theorem isFile_unlink_iff (hu : h.unlink path = .ok h') {e : Entry} :
    h'.isFile e = true ↔ h.isFile e = true ∧ ¬Path.LeadsTo path e := by
  unfold unlink at hu
  cases hr : Path.removable h.isFile path with
  | error errno =>
    rw [hr] at hu
    cases hu
  | ok gone =>
    rw [hr] at hu
    cases hu
    obtain ⟨hleads, -⟩ := Path.removable_eq_ok_iff.mp hr
    have hleads_iff : Path.LeadsTo path e ↔ e = gone :=
      ⟨fun h => h.unique hleads, fun h => h ▸ hleads⟩
    rw [hleads_iff, isFile_iff, isFile_iff]
    simp only [List.mem_filter, bne_iff_ne, ne_eq, SocketName.file.injEq]
    constructor
    · rintro ⟨owner, hmem, hne⟩
      exact ⟨⟨owner, hmem⟩, hne⟩
    · rintro ⟨⟨owner, hmem⟩, hne⟩
      exact ⟨owner, hmem, hne⟩

/-- Where nothing can be unlinked there is no file. -/
theorem isFile_of_unlink_error {errno : Errno} (hu : h.unlink path = .error errno)
    (hp : Path.LeadsTo path e) : h.isFile e = false := by
  cases hf : h.isFile e with
  | false => rfl
  | true =>
    unfold unlink at hu
    rw [Path.removable_eq_ok_iff.mpr ⟨hp, hf⟩] at hu
    cases hu

/-- Files outlive whoever listens there. -/
theorem isFile_releaseNames (h : Host) (fd : Nat) (e : Entry) :
    (h.releaseNames fd).isFile e = h.isFile e := by
  rw [Bool.eq_iff_iff, isFile_iff, isFile_iff]
  unfold releaseNames
  simp only [List.mem_filterMap]
  -- only detached names go with their descriptor
  constructor
  · rintro ⟨owner, ⟨name, owner'⟩, hmem, heq⟩
    cases name with
    | file e' =>
      simp only [Option.some.injEq, Prod.mk.injEq, SocketName.file.injEq] at heq
      obtain ⟨rfl, -⟩ := heq
      exact ⟨owner', hmem⟩
    | detached name =>
      dsimp only at heq
      split at heq <;> cases heq
  · rintro ⟨owner, hmem⟩
    exact ⟨_, (.file e, owner), hmem, rfl⟩

/-- A connection that is hung up takes no name along. -/
theorem names_hangUp (h : Host) (number : Nat) (unaccepted : Bool) :
    (h.hangUp number unaccepted).names = h.names := by
  unfold hangUp
  split <;> rfl

/-- Nor does a whole backlog. -/
theorem names_foldl_hangUp (backlog : List Nat) (h : Host) :
    (backlog.foldl (fun h number => h.hangUp number true) h).names = h.names := by
  induction backlog generalizing h with
  | nil => rfl
  | cons number rest ih => rw [List.foldl_cons, ih, names_hangUp]

/-- An object that nobody refers to leaves its files behind. -/
theorem isFile_discard (h : Host) (fd : Nat) (o : Object) (e : Entry) :
    (h.discard fd o).isFile e = h.isFile e := by
  cases o with
  | stream number =>
    unfold isFile isNamed discard
    rw [names_hangUp]
  | listener bound backlog =>
    have hnames : (h.discard fd (.listener bound backlog)).names = (h.releaseNames fd).names :=
      names_foldl_hangUp backlog _
    rw [← isFile_releaseNames h fd e]
    unfold isFile isNamed
    rw [hnames]
  | _ => rfl

theorem isFile_close (h : Host) (fd : Nat) (e : Entry) : (h.close fd).isFile e = h.isFile e := by
  unfold close
  cases h.object? fd with
  | none => rfl
  | some o => exact isFile_discard (h.unwatch fd) fd o e

theorem isFile_close? (h : Host) (fd : Option Nat) (e : Entry) :
    (h.close? fd).isFile e = h.isFile e := by
  cases fd with
  | none => rfl
  | some fd => exact isFile_close h fd e

/-- A name that is vacant is a name outside the file system, or an entry without a file. -/
theorem vacantName_ok {name : SocketName} (hv : h.vacantName path = .ok name) :
    (isDetached path = true ∧ name = .detached path) ∨
      ∃ e, Path.LeadsTo path e ∧ h.isFile e = false ∧ name = .file e := by
  unfold vacantName at hv
  split at hv
  next hd =>
    split at hv
    next => cases hv
    next =>
      cases hv
      exact Or.inl ⟨hd, rfl⟩
  next hd =>
    cases hvac : Path.vacancy h.isFile path with
    | error errno =>
      rw [hvac] at hv
      cases hv
    | ok e =>
      rw [hvac] at hv
      cases hv
      obtain ⟨hleads, hfree⟩ := Path.vacancy_eq_ok_iff.mp hvac
      exact Or.inr ⟨e, hleads, hfree, rfl⟩

theorem names_allocate {o : Object} (ha : h.allocate o = .ok (fd, h')) : h'.names = h.names := by
  unfold allocate at ha
  split at ha
  · cases ha
    rfl
  · cases ha

/-- Whoever listens takes a vacant name. -/
theorem listen_ok (hl : h.listen path = .ok (fd, h')) :
    ∃ name, h.vacantName path = .ok name ∧ h'.names = h.names ++ [(name, some fd)] := by
  -- the name is looked for after the limits, and entered with the descriptor
  unfold listen at hl
  split at hl
  next => cases hl
  next =>
    split at hl
    next => cases hl
    next =>
      cases hv : h.vacantName path with
      | error errno =>
        rw [hv] at hl
        cases hl
      | ok name =>
        rw [hv] at hl
        dsimp only at hl
        cases ha : h.allocate (.listener (.path path) []) with
        | error errno =>
          rw [ha] at hl
          cases hl
        | ok r =>
          obtain ⟨fd', grown⟩ := r
          rw [ha] at hl
          cases hl
          exact ⟨name, rfl, congrArg (· ++ [(name, some fd)]) (names_allocate ha)⟩

/-- **What listening at a path makes**: the file there, unless that is a name outside the file
system. -/
theorem isFile_listen (hl : h.listen path = .ok (fd, h')) :
    (isDetached path = true ∧ ∀ e, h'.isFile e = h.isFile e) ∨
      ∃ e, Path.LeadsTo path e ∧ h.isFile e = false ∧
        ∀ e', h'.isFile e' = true ↔ h.isFile e' = true ∨ e' = e := by
  obtain ⟨name, hv, hnames⟩ := listen_ok hl
  have hfile : ∀ e', h'.isFile e' = true ↔ h.isFile e' = true ∨ name = .file e' := by
    intro e'
    unfold isFile isNamed
    simp [hnames]
  obtain ⟨hd, rfl⟩ | ⟨e, hleads, hfree, rfl⟩ := vacantName_ok hv
  · refine Or.inl ⟨hd, fun e' => ?_⟩
    rw [Bool.eq_iff_iff, hfile]
    simp
  · refine Or.inr ⟨e, hleads, hfree, fun e' => ?_⟩
    rw [hfile, SocketName.file.injEq, eq_comm (a := e)]

/-- Whoever unlinks the path again leaves the files as they were. -/
theorem isFile_unlink_of_listen (hl : h.listen path = .ok (fd, h')) (e : Entry) :
    ((h'.unlink path).toOption.getD h').isFile e = h.isFile e := by
  cases hu : h'.unlink path with
  | ok h'' =>
    have hgone := isFile_unlink_iff hu (e := e)
    rw [Bool.eq_iff_iff]
    refine hgone.trans ?_
    obtain ⟨hd, hsame⟩ | ⟨e', hp, hfree, hnew⟩ := isFile_listen hl
    · rw [hsame]
      exact and_iff_left (Path.not_leadsTo_of_isDetached hd)
    · rw [hnew]
      constructor
      · rintro ⟨hold | rfl, hother⟩
        · exact hold
        · exact absurd hp hother
      · -- what was there before is not at the path, where nothing was
        refine fun hold => ⟨Or.inl hold, fun hp' => ?_⟩
        rw [hp'.unique hp, hfree] at hold
        cases hold
  | error errno =>
    obtain ⟨-, hsame⟩ | ⟨e', hp, -, hnew⟩ := isFile_listen hl
    · exact hsame e
    · -- the new file could have been unlinked
      have hnone := isFile_of_unlink_error hu hp
      rw [(hnew e').mpr (Or.inr rfl)] at hnone
      cases hnone

end Host

namespace Listener

variable {t : Listener} {h h' : Host} {path : String} {e : Entry}

/-- Whoever is bound listens at the path. -/
theorem listen_of_bindUnix (hb : bindUnix path h = (.ok t, h')) :
    t.path = path ∧ ∃ fd, h.listen path = .ok (fd, h') := by
  unfold bindUnix at hb
  split at hb
  next => cases hb
  next => cases hb
  next => cases hb
  next fd bound hl =>
    split at hb
    · cases hb
      exact ⟨rfl, fd, hl⟩
    · cases hb

/-- **What a listener makes when it is bound**: the file at its path, unless that is a name outside
the file system. -/
theorem isFile_bindUnix (hb : bindUnix path h = (.ok t, h')) : t.path = path ∧
    ((Host.isDetached path = true ∧ ∀ e, h'.isFile e = h.isFile e) ∨
      ∃ e, Path.LeadsTo path e ∧ h.isFile e = false ∧
        ∀ e', h'.isFile e' = true ↔ h.isFile e' = true ∨ e' = e) := by
  obtain ⟨hpath, fd, hl⟩ := listen_of_bindUnix hb
  exact ⟨hpath, Host.isFile_listen hl⟩

/-- **A bind that fails leaves the files as they are**, also if it only fails to listen: then the
file that was made goes again. -/
theorem isFile_bindUnix_error {f : Failure} (hb : bindUnix path h = (.error f, h')) (e : Entry) :
    h'.isFile e = h.isFile e := by
  unfold bindUnix at hb
  split at hb
  next =>
    cases hb
    rfl
  next =>
    cases hb
    rfl
  next =>
    cases hb
    rfl
  -- bound but not listening: the file is unlinked again
  next fd bound hl =>
    split at hb
    · cases hb
    · cases hb
      rw [Host.isFile_close]
      exact Host.isFile_unlink_of_listen hl e

/-- **What a listener removes when it goes**: the file its path leads to, whoever made it. -/
theorem isFile_close_iff (t : Listener) (h : Host) (e : Entry) :
    (t.close h).isFile e = true ↔ h.isFile e = true ∧ ¬Path.LeadsTo t.path e := by
  unfold close
  rw [Host.isFile_close?]
  unfold unlinkPath
  split
  next hempty =>
    refine ⟨fun hf => ⟨hf, ?_⟩, And.left⟩
    rintro ⟨⟨p, hr, -⟩, -⟩
    rw [String.isEmpty_iff.mp hempty] at hr
    cases hr
  next =>
    cases hu : h.unlink t.path with
    | ok host => exact Host.isFile_unlink_iff hu
    | error errno =>
      -- there was nothing to remove
      refine ⟨fun hf => ⟨hf, fun hp => ?_⟩, And.left⟩
      have hnone := Host.isFile_of_unlink_error hu hp
      rw [show h.isFile e = true from hf] at hnone
      cases hnone

end Listener

end EventLoop

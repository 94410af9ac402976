import EventLoop.Errno

/-!
# Paths

How a path leads through the directories of the host, and what the calls that take a path
make of its end.

A path is followed part by part, from the top if it begins with a slash and from the working
directory otherwise. Slashes in a row count as one, `.` stays where it is, `..` goes to the
directory above, and every other part but the last has to be a directory that is there. A
slash at the end asks for a directory.

Directories are neither made nor removed here. There are those that every host has, the
device files in `/dev`, and whatever files the caller says there are.

## Main definitions

* `Directory`, `Entry`, `Node` — the directories, a name in one of them, and what it can name.
* `Path.walk` — where a path ends.
* `Path.find`, `Path.vacancy`, `Path.removable`, `Path.appendable` — what is at a path, and
  the entry at which a file can be made, removed or written to.
-/

namespace EventLoop

/-! ### Directories and their entries -/

/-- A directory. -/
inductive Directory
  /-- The top, which is its own parent. -/
  | root
  /-- A directory at the top. -/
  | standard (name : String)
  /-- The directory in which paths without a slash in front begin. It has no directories in
  it. -/
  | working
  deriving DecidableEq, Repr

/-- A name in a directory. -/
structure Entry where
  /-- The directory. -/
  directory : Directory
  /-- The name. -/
  name : String
  deriving DecidableEq, Repr

/-- What an entry can name. -/
inductive Node
  /-- A directory. -/
  | directory (d : Directory)
  /-- A device file. -/
  | device
  /-- Any other file. -/
  | file (e : Entry)
  deriving DecidableEq, Repr

namespace Directory

/-- The directories at the top of every host. -/
def standardNames : List String := ["dev", "etc", "proc", "sys", "tmp", "usr", "var"]

/-- The directory above. -/
def parent : Directory → Directory
  | .root | .standard _ => .root
  | .working => .standard "tmp"

end Directory

namespace Entry

/-- A device file, which stands in `/dev`. -/
def device (name : String) : Entry := ⟨.standard "dev", name⟩

/-- The device files of every host. -/
def deviceNames : List String :=
  ["full", "null", "random", "stderr", "stdin", "stdout", "urandom", "zero"]

/-- What every host has under an entry. -/
def standing? (e : Entry) : Option Node :=
  if e.directory = .root && Directory.standardNames.contains e.name then
    some (.directory (.standard e.name))
  else if e = device e.name && deviceNames.contains e.name then some .device
  else none

/-- What an entry names, on a host with the given files. -/
def node? (isFile : Entry → Bool) (e : Entry) : Option Node :=
  match e.standing? with
  | some n => some n
  | none => if isFile e then some (.file e) else none

end Entry

/-! ### Following a path -/

/-- A path, taken apart. -/
structure Path where
  /-- Does it begin at the top? -/
  absolute : Bool
  /-- What stands between its slashes. -/
  parts : List String
  /-- Does it end in a slash? -/
  slashed : Bool
  deriving DecidableEq, Repr

namespace Path

/-- How many bytes a path may have, with one that marks its end. -/
def room : Nat := 4096

/-- How many bytes a name may have. -/
def nameRoom : Nat := 255

/-- The characters of a path. It ends at a NUL character. -/
def chars (path : String) : List Char := path.toList.takeWhile (· ≠ '\x00')

/-- The part of a path before its first NUL character. -/
def text (path : String) : String := String.ofList (chars path)

/-- Takes a path apart. Nothing is no path. -/
def read (path : String) : Except Errno Path :=
  let cs := chars path
  if cs.isEmpty then .error .noEntry
  else if room ≤ (text path).utf8ByteSize then .error .nameTooLong
  else
    let parts := (cs.splitOn '/').filter (!·.isEmpty)
    .ok ⟨cs.head? = some '/', parts.map String.ofList, cs.getLast? = some '/'⟩

/-- Where a path ends. -/
inductive Ending
  /-- At a directory that its last part does not name. -/
  | directory (d : Directory)
  /-- At an entry, which may name something or nothing. -/
  | entry (e : Entry)
  deriving DecidableEq, Repr

/-- Follows the parts of a path from a directory on. -/
def descend (isFile : Entry → Bool) (here : Directory) : List String → Except Errno Ending
  | [] => .ok (.directory here)
  | name :: rest =>
    if name = "." then descend isFile here rest
    else if name = ".." then descend isFile here.parent rest
    else if nameRoom < name.utf8ByteSize then .error .nameTooLong
    else if rest.isEmpty then .ok (.entry ⟨here, name⟩)
    else
      match Entry.node? isFile ⟨here, name⟩ with
      | some (.directory d) => descend isFile d rest
      | some _ => .error .notDirectory
      | none => .error .noEntry

/-- Where a path ends. -/
def walk (isFile : Entry → Bool) (p : Path) : Except Errno Ending :=
  descend isFile (if p.absolute then .root else .working) p.parts

/-- What is at a path. -/
def find (isFile : Entry → Bool) (path : String) : Except Errno Node := do
  let p ← read path
  match ← p.walk isFile with
  | .directory d => .ok (.directory d)
  | .entry e =>
    match e.node? isFile with
    | none => .error .noEntry
    | some (.directory d) => .ok (.directory d)
    | some n => if p.slashed then .error .notDirectory else .ok n

/-- The entry at which a new file can be made. What is there already comes before the
complaint that a slash at the end asks for a directory. -/
def vacancy (isFile : Entry → Bool) (path : String) : Except Errno Entry := do
  let p ← read path
  match ← p.walk isFile with
  | .directory _ => .error .alreadyExists
  | .entry e =>
    if (e.node? isFile).isSome then .error .alreadyExists
    else if p.slashed then .error .noEntry
    else .ok e

/-- The entry of the file that can be removed. -/
def removable (isFile : Entry → Bool) (path : String) : Except Errno Entry := do
  let p ← read path
  match ← p.walk isFile with
  | .directory _ => .error .isDirectory
  | .entry e =>
    match e.node? isFile with
    | none => .error .noEntry
    | some (.directory _) => .error .isDirectory
    | some .device => .error .notPermitted
    | some (.file e) => if p.slashed then .error .notDirectory else .ok e

/-- The entry of the file that can be written to, which is made if it is not there. -/
def appendable (isFile : Entry → Bool) (path : String) : Except Errno Entry := do
  let p ← read path
  match ← p.walk isFile with
  | .directory _ => .error .isDirectory
  | .entry e =>
    if p.slashed then .error .isDirectory
    else
      match e.node? isFile with
      | some (.directory _) => .error .isDirectory
      | _ => .ok e

/-! ### Laws -/

@[simp] theorem descend_nil (isFile : Entry → Bool) (d : Directory) :
    descend isFile d [] = .ok (.directory d) := rfl

/-- A dot changes nothing. -/
@[simp] theorem descend_dot (isFile : Entry → Bool) (d : Directory) (rest : List String) :
    descend isFile d ("." :: rest) = descend isFile d rest := by
  simp [descend]

end Path

end EventLoop

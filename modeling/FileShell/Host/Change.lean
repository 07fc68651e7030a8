/-
FileShell.Host.Change — making and removing entries.

Each operation follows the path to its last name, makes its checks in the
operating system's order, asks for the right to the one change it makes to
one directory, and makes it. None of them follows a link in the last place:
a link is an entry like any other.
-/
import FileShell.Host.Rights
import FileShell.Host.Walk

namespace FileShell

namespace Host

open IoError (Cause)

/-- The result of an operation, and the machine after it. -/
abbrev Result (α : Type) := Except IoError α × Host

/-- An operation on a path that the system has been given: refused for a
NUL character, else done, or refused for a cause and nothing changed. -/
def guarded (h : Host) (p : Path) (op : Except Cause Host) : Result Unit :=
  if hasNul p then (.error .nulInPath, h)
  else match op with
    | .error c => (.error (.system c), h)
    | .ok h' => (.ok (), h')

/-- The machine with an entry put into a directory. -/
def put (h : Host) (directory : Place) (name : Text) (node : Node) : Host :=
  { h with root := h.root.edit directory fun es => Entries.put es name node }

/-- The machine with an entry taken out of a directory. -/
def remove (h : Host) (directory : Place) (name : Text) : Host :=
  { h with root := h.root.edit directory fun es => Entries.remove es name }

/-! ## Making -/

/-- Make a directory in the volume of its parent. A slash may follow the name. -/
def createDirectory? (h : Host) (p : Path) (rights : Rights := .all) : Except Cause Host := do
  let s ← h.parent p
  match s.ending with
  | .name n =>
    let directory ← s.directory.open?
    match ← h.lookup directory n with
    | some _ => throw .exists
    | none =>
      rights.grant .make (directory ++ [n])
      return h.put directory n (.directory ((h.root.volumeAt directory).getD 0) [])
  | _ => throw .exists

/-- Make an empty file where there is nothing. -/
def createFile? (h : Host) (p : Path) (rights : Rights := .all) : Except Cause Host := do
  let s ← h.parent p
  match s.ending with
  | .name n =>
    if s.slash then throw .isADirectory
    let directory ← s.directory.open?
    match ← h.lookup directory n with
    | some _ => throw .exists
    | none =>
      rights.grant .make (directory ++ [n])
      return h.put directory n (.file [])
  | _ => throw .exists

/-- Make a directory. -/
def createDirectory (h : Host) (p : Path) (rights : Rights := .all) : Result Unit :=
  h.guarded p (h.createDirectory? p rights)

/-- Make an empty file where there is nothing. -/
def createFile (h : Host) (p : Path) (rights : Rights := .all) : Result Unit :=
  h.guarded p (h.createFile? p rights)

/-! ## Removing -/

/-- Whether an entry of a directory is the top of another volume. -/
def isMountPoint (h : Host) (parent : Place) : Node → Bool
  | .directory volume _ => h.root.volumeAt parent ≠ some volume
  | _ => false

/-- Remove a directory that is empty. -/
def removeDirectory? (h : Host) (p : Path) (rights : Rights := .all) : Except Cause Host := do
  let s ← h.parent p
  match s.ending with
  | .name n =>
    let directory ← s.directory.open?
    match ← h.lookup directory n with
    | none => throw .noEntry
    | some (.directory volume es) =>
      if h.isMountPoint directory (.directory volume es) then throw .busy
      if !es.isEmpty then throw .notEmpty
      rights.grant .remove (directory ++ [n])
      return { h.remove directory n with process := h.process.without (directory ++ [n]) }
    | some _ => throw .notADirectory
  | .up => throw .notEmpty
  | .stay => throw .invalidArgument
  | .root => throw .busy

/-- Remove anything but a directory. -/
def removeFile? (h : Host) (p : Path) (rights : Rights := .all) : Except Cause Host := do
  let s ← h.parent p
  match s.ending with
  | .name n =>
    let directory ← s.directory.open?
    match ← h.lookup directory n with
    | none => throw .noEntry
    | some (.directory _ _) => throw .isADirectory
    | some _ =>
      if s.slash then throw .notADirectory
      rights.grant .remove (directory ++ [n])
      return h.remove directory n
  | _ => throw .isADirectory

/-- Remove a directory that is empty. -/
def removeDirectory (h : Host) (p : Path) (rights : Rights := .all) : Result Unit :=
  h.guarded p (h.removeDirectory? p rights)

/-- Remove anything but a directory. -/
def removeFile (h : Host) (p : Path) (rights : Rights := .all) : Result Unit :=
  h.guarded p (h.removeFile? p rights)

end Host

end FileShell

/-
FileShell.Host.Move — giving an entry another path.

`rename?` is the operating system's own renaming: atomic, within one
volume, and of the entry itself, never of what a link leads to. Across
volumes it refuses, and `move` then copies a regular file and removes the
entry it came from; a directory is never copied.

The copy opens the target as any writer does: it follows a link there and
empties what it finds before the first byte is read. A copy that was made
stays where it is if its source may not be removed.
-/
import FileShell.Host.Content

namespace FileShell

namespace Host

open IoError (Cause)

/-! ## Renaming -/

/-- Whether a place is another one or lies below it. -/
def isWithin (outer place : Place) : Bool := outer.isPrefixOf place

/-- Whether an entry may take the place of what is there: a directory of a
directory, anything else of anything else. -/
def mayReplace (node : Node) : Option Node → Except Cause Unit
  | none => .ok ()
  | some old =>
    if node.isDirectory && !old.isDirectory then .error .notADirectory
    else if !node.isDirectory && old.isDirectory then .error .isADirectory
    else .ok ()

/-- Whether an entry holds entries of its own. -/
def isFull : Node → Bool
  | .directory _ es => !es.isEmpty
  | _ => false

/-- Give the entry at `source` the path `target`, replacing a file by a
file and an empty directory by a directory. -/
def rename? (h : Host) (source target : Path) (rights : Rights := .all) : Except Cause Host := do
  let old ← h.parent source
  let new ← h.parent target
  if h.root.volumeOf old.directory ≠ h.root.volumeOf new.directory then throw .crossesDevices
  match old.ending, new.ending with
  | .name a, .name b =>
    let front ← old.directory.open?
    match ← h.lookup front a with
    | none => throw .noEntry
    | some node =>
      let goal ← new.directory.open?
      let existing ← h.lookup goal b
      if !node.isDirectory && (old.slash || new.slash) then throw .notADirectory
      let here := front ++ [a]
      let there := goal ++ [b]
      if isWithin here goal then throw .invalidArgument
      if isWithin there front then throw .notEmpty
      if here = there then return h
      mayReplace node existing
      if h.isMountPoint front node || existing.any (h.isMountPoint goal) then throw .busy
      if existing.any isFull then throw .notEmpty
      rights.grant .remove here
      rights.grant (if existing.isSome then .remove else .make) there
      let moved := (h.remove front a).put goal b node
      return { moved with process := (h.process.without there).moved here there }
  | _, _ => throw .busy

/-- Give the entry at `source` the path `target`. -/
def rename (h : Host) (source target : Path) (rights : Rights := .all) : Result Unit :=
  if hasNul source || hasNul target then (.error .nulInPath, h)
  else match h.rename? source target rights with
    | .error c => (.error (.system c), h)
    | .ok h' => (.ok (), h')

/-! ## Copying and removing -/

/-- Copy the content that `source` leads to into what `target` leads to. -/
def copy (h : Host) (source target : Path) (rights : Rights := .all) : Result Unit :=
  match h.openForRead source rights with
  | .error e => (.error e, h)
  | .ok (spot, _) =>
    match h.openForWrite target .overwrite rights with
    | (.error e, h) => (.error e, h)
    | (.ok file, h) =>
      match h.root.at? spot with
      | some (.file content) => h.writeTo file content
      | _ => (.ok (), h)

/-- Copy, then remove the entry that was copied. -/
def copyThenRemove (h : Host) (source target : Path) (rights : Rights := .all) : Result Unit :=
  match h.copy source target rights with
  | (.error e, h) => (.error e, h)
  | (.ok (), h) => h.removeFile source rights

/-- Rename; across volumes, copy a regular file and remove it. -/
def move (h : Host) (source target : Path) (rights : Rights := .all) : Result Unit :=
  match h.rename source target rights with
  | (.error e, h) =>
    if e.kind = .crossesDevices && h.isFile source then h.copyThenRemove source target rights
    else (.error e, h)
  | (.ok (), h) => (.ok (), h)

end Host

end FileShell

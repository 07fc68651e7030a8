/-
FileShell.Host.Content — reading and writing files.

Reading and listing follow a path all the way. Opening a directory for
reading succeeds; it is the first line that fails.

Opening for writing makes the file if the last name is free, also when a
link leads there, and empties it unless the content is to be added to. An
`OpenFile` is the place that was reached, so what is written goes to that
entry whatever its path says by then.
-/
import FileShell.Host.Change
import FileShell.Files
import FileShell.Text.Lines

namespace FileShell

namespace Host

open IoError (Cause)

/-! ## Asking -/

/-- Whether a path leads to anything. -/
def exists? (h : Host) (p : Path) : Bool := (h.locate p).isOk

/-- Whether a path leads to a directory. -/
def isDirectory (h : Host) (p : Path) : Bool :=
  match h.locate p with
  | .ok (_, node) => node.isDirectory
  | .error _ => false

/-- Whether a path leads to a regular file. -/
def isFile (h : Host) (p : Path) : Bool :=
  match h.locate p with
  | .ok (_, .file _) => true
  | _ => false

/-! ## Reading -/

/-- What a path leads to, for a process that may read it. -/
def openForRead (h : Host) (p : Path) (rights : Rights := .all) : Except IoError (Spot × Node) := do
  let (spot, node) ← h.locate p
  match rights.grantRead spot with
  | .ok () => return (spot, node)
  | .error c => throw (.system c)

@[simp] theorem openForRead_all (h : Host) (p : Path) : h.openForRead p = h.locate p := by
  rw [openForRead]
  cases h.locate p with
  | error e => rfl
  | ok found => simp [bind, Except.bind, pure, Except.pure]

/-- The names in the directory that a path leads to. -/
def entries (h : Host) (p : Path) (rights : Rights := .all) : Except IoError (List Text) :=
  match h.openForRead p rights with
  | .ok (_, .directory _ es) => .ok (es.map fun e => e.1)
  | .ok _ => .error (.system .notADirectory)
  | .error e => .error e

/-- The bytes that the path leads to. -/
def readAll (h : Host) (p : Path) (rights : Rights := .all) : Except IoError Bytes :=
  match h.openForRead p rights with
  | .ok (_, .file content) => .ok content
  | .ok (_, .directory _ _) => .error (.system .isADirectory)
  | .ok _ => .ok []
  | .error e => .error e

/-- The lines of some content: without their ends, and with U+FFFD for
what is not text. -/
def linesOf (content : Bytes) : List Text :=
  (Lines.rawLines content).map fun l => Utf8.decodeLossy (Lines.chomp l)

/-- The items that a path leads to. -/
def readLines (h : Host) (p : Path) (rights : Rights := .all) :
    Except IoError (List Files.LineItem) :=
  match h.openForRead p rights with
  | .ok (_, .file content) => .ok ((linesOf content).map .ok)
  | .ok (_, .directory _ _) => .ok [.error (.system .isADirectory)]
  | .ok _ => .ok []
  | .error e => .error e

/-! ## Writing -/

/-- A file that is open for writing. -/
structure OpenFile where
  place : Place

/-- The machine with the node at a place replaced. -/
def replaceAt (h : Host) (place : Place) (node : Node) : Host :=
  { h with root := h.root.modify (fun _ => node) place }

/-- Open for writing the file that a path leads to, or make it. -/
def openForWrite? (h : Host) (p : Path) (mode : WriteMode) (rights : Rights := .all) :
    Except Cause (OpenFile × Host) := do
  match ← h.walk true p with
  | .vacant directory name =>
    rights.grant .make (directory ++ [name])
    return (⟨directory ++ [name]⟩, h.put directory name (.file []))
  | .entry (.removed _) => throw .isADirectory
  | .entry (.inTree place) =>
    match h.root.find? place, mode with
    | none, _ => throw .noEntry
    | some (.directory _ _), _ => throw .isADirectory
    | some (.file _), .overwrite =>
      rights.grant .write place
      return (⟨place⟩, h.replaceAt place (.file []))
    | some _, _ =>
      rights.grant .write place
      return (⟨place⟩, h)

/-- Open for writing the file that a path leads to, or make it. -/
def openForWrite (h : Host) (p : Path) (mode : WriteMode) (rights : Rights := .all) :
    Result OpenFile :=
  if hasNul p then (.error .nulInPath, h)
  else match h.openForWrite? p mode rights with
    | .error c => (.error (.system c), h)
    | .ok (file, h') => (.ok file, h')

/-- Write bytes at the end of an open file. -/
def writeTo (h : Host) (file : OpenFile) (content : Bytes) : Result Unit :=
  match h.root.find? file.place with
  | some (.file old) => (.ok (), h.replaceAt file.place (.file (old ++ content)))
  | some (.device .full) =>
    if content = [] then (.ok (), h) else (.error (.system .noSpace), h)
  | _ => (.ok (), h)

/-- Open a file, write content to it and flush. -/
def write (h : Host) (p : Path) (mode : WriteMode) (content : Bytes) (rights : Rights := .all) :
    Except Files.WriteError Unit × Host :=
  match h.openForWrite p mode rights with
  | (.error e, h) => (.error (.opening e), h)
  | (.ok file, h) =>
    match h.writeTo file content with
    | (.error e, h) => (.error (.writing e), h)
    | (.ok (), h) => (.ok (), h)

end Host

end FileShell

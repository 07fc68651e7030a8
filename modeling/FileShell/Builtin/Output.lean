/-
FileShell.Builtin.Output — the commands that produce output.

`echo`, `ls` and `cat` only read. Each ends with its whole output in hand;
where the output goes is decided by whoever called the command, after the
command has succeeded. What `cat` could not read it reports on the console
at once, and goes on with the next file.
-/
import FileShell.Builtin
import FileShell.Path.Normal

namespace FileShell

namespace Builtin

open Attempt

/-- Lines as text, each followed by a newline. -/
def linesText (lines : List Text) : Text := lines.flatMap fun l => l ++ ['\n']

/-! ## Listing a directory -/

/-- Whether a name comes before another, or is the same: the order of code
points, which is also the order of the bytes. -/
def nameLE : Text → Text → Bool
  | [], _ => true
  | _ :: _, [] => false
  | a :: as, b :: bs => decide (a.toNat < b.toNat) || (a = b && nameLE as bs)

/-- Whether a name is hidden. -/
def isHidden (name : Text) : Bool :=
  match name with
  | '.' :: _ => true
  | _ => false

/-- The names that a listing shows, in the order it shows them. -/
def Listing.shown (l : Listing) (names : List Text) : List Text :=
  let sorted := (names.filter fun n => l.showHidden || !isHidden n).mergeSort nameLE
  if l.reverse then sorted.reverse else sorted

/-- List a directory. -/
def runLs (l : Listing) (dir : Path) : Attempt Success := do
  let (place, label) := match l.path with
    | some arg => (dir.resolve arg, arg)
    | none => (dir, dir.text)
  if !(← ask (.isDirectory place)) then
    throw (Failure.invalidDirectory label)
  let names ← orFail (.io "Unable to list files".toList) (← ask (.entries place))
  return ⟨0, (linesText (l.shown names)).bytes, dir⟩

/-! ## Concatenating files -/

/-- The text of the lines so far, which come latest first, and of those that
a reader has left, and whether anything had to be reported. Items are asked
for one by one, and none behind one that fails. -/
def readOn : (left : Nat) → Files.Reader → List Text → Attempt (Text × Bool)
  | 0, _, latest => return (linesText latest.reverse, false)
  | left + 1, reader, latest => do
    match ← ask (.nextLine reader) with
    | none => return (linesText latest.reverse, false)
    | some (.error e, _) =>
      report (.io "Error reading file".toList e)
      return (linesText latest.reverse, true)
    | some (.ok line, reader) => readOn left reader (line :: latest)

/-- The text of one file up to its end or first failure, and whether
anything had to be reported. -/
def readFile (dir : Path) (name : Text) : Attempt (Text × Bool) := do
  let path := dir.resolve name
  if !(← ask (.exists path)) then
    report (.fileNotFound name)
    return ([], true)
  match ← ask (.readLines path) with
  | .error e =>
    report (.io "Error reading file".toList e)
    return ([], true)
  | .ok reader => readOn reader.left reader []

/-- The text of several files, one after another, and whether anything had
to be reported. -/
def readFiles (dir : Path) : List Text → Attempt (Text × Bool)
  | [] => return ([], false)
  | name :: names => do
    let (text, failed) ← readFile dir name
    let (texts, failedLater) ← readFiles dir names
    return (text ++ texts, failed || failedLater)

/-- Concatenate files. -/
def runCat (files : List Text) (dir : Path) : Attempt Success := do
  let (text, failed) ← readFiles dir files
  return ⟨if failed then 1 else 0, text.bytes, dir⟩

/-! ## Saying something -/

/-- Write a message and a newline. -/
def runEcho (message : Text) (dir : Path) : Attempt Success :=
  return ⟨0, (message ++ ['\n']).bytes, dir⟩

end Builtin

end FileShell

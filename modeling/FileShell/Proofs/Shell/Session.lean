/-
FileShell.Proofs.Shell.Session — lines run one after another.

A session is between two segments of a line, or between two lines. Both
are ends of `executeUpTo`: some whole lines, then the first few segments
of one more.
-/
import FileShell.Shell

namespace FileShell

namespace Shell

/-- Run lines in order: the directory the session is in afterwards. -/
def executeAll (table : CommandTable) : List Text → Path → Program Path
  | [], dir => return dir
  | line :: rest, dir => do
    let (_, dir) ← execute table line dir
    executeAll table rest dir

/-- Run lines in order and then the first segments of one more line: the
directory the session is in afterwards. -/
def executeUpTo (table : CommandTable) (lines : List Text) (line : Text) (count : Nat)
    (dir : Path) : Program Path := do
  let dir ← executeAll table lines dir
  let (_, dir) ← runEntries table ((Line.invocations line).take count) 0 dir
  return dir

end Shell

end FileShell

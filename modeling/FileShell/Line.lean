/-
FileShell.Line — what one typed line asks for.

A line is a row of segments, and a segment that is not blank is an
`Invocation`: a command's name, its arguments and at most one redirection
of its output. `FileShell.Line.Parser` reads them off the text.
-/
import FileShell.Text

namespace FileShell

/-- What writing to a file does with what is in it. -/
inductive WriteMode where
  /-- Replace the content. -/
  | overwrite
  /-- Add to the end of the content. -/
  | append
  deriving DecidableEq, Repr

/-- The operator that asks for a mode. -/
def WriteMode.operator : WriteMode → Text
  | .overwrite => ['>']
  | .append => ['>', '>']

/-- Where a command's output goes instead of the console. -/
structure Redirect where
  mode : WriteMode
  target : Text
  deriving DecidableEq, Repr

/-- One command as it is called. -/
structure Invocation where
  name : Text
  args : List Text
  redirect : Option Redirect
  deriving DecidableEq, Repr

end FileShell

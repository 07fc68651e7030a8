/-
FileShell.Line.Parser — reading invocations off a line.

    line     := segment ('|' segment)*
    segment  := blank* name (space+ token)* blank*

There is no quoting. A `|` always ends a segment and U+0020 always ends a
token, while a segment is trimmed of white space in the Unicode sense.

The redirection is looked for among the tokens after the name. A bare `>`
anywhere wins over `>>`, even over one in front of it; the operator that
wins takes the next token as its target, and it and everything after it
leaves the arguments. The parser never asks the file system anything.
-/
import FileShell.Line
import FileShell.Failure

namespace FileShell

namespace Line

/-- The segments of a line, untrimmed, empty ones included. -/
def segments (line : Text) : List Text := Text.pieces '|' line

/-- The tokens of a segment: what stands between spaces once the ends are trimmed. -/
def tokens (segment : Text) : List Text :=
  (Text.pieces ' ' segment.trim).filter fun t => t ≠ []

/-! ## The redirection -/

/-- What stands before and after the first token equal to `op`. -/
def cutAt (op : Text) : List Text → Option (List Text × List Text)
  | [] => none
  | t :: rest =>
    if t = op then some ([], rest)
    else (cutAt op rest).map fun (before, after) => (t :: before, after)

/-- The arguments and the redirection that a list of tokens stands for. -/
def redirection (args : List Text) : Except Failure (List Text × Option Redirect) :=
  let taken (mode : WriteMode) : List Text × List Text →
      Except Failure (List Text × Option Redirect)
    | (_, []) => .error (.missingRedirectTarget mode.operator)
    | (before, target :: _) => .ok (before, some ⟨mode, target⟩)
  match cutAt WriteMode.overwrite.operator args with
  | some parts => taken .overwrite parts
  | none =>
    match cutAt WriteMode.append.operator args with
    | some parts => taken .append parts
    | none => .ok (args, none)

/-! ## Segments and lines -/

/-- The invocation a segment stands for; none if it is blank. -/
def invocation? (segment : Text) : Except Failure (Option Invocation) :=
  match tokens segment with
  | [] => .ok none
  | name :: args =>
    match redirection args with
    | .error f => .error f
    | .ok (args, redirect) => .ok (some ⟨name, args, redirect⟩)

/-- The invocation of a segment, or why it has none; nothing for a blank one. -/
def entry? (segment : Text) : Option (Except Failure Invocation) :=
  match invocation? segment with
  | .error f => some (.error f)
  | .ok (some i) => some (.ok i)
  | .ok none => none

/-- The invocations of a line, in order. Each segment succeeds or fails on
its own, and blank ones leave no trace. -/
def invocations (line : Text) : List (Except Failure Invocation) :=
  (segments line).filterMap entry?

end Line

end FileShell

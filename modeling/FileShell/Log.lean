/-
FileShell.Log — what a session puts on record.

A record is an event; its level and its wording follow from it. Records
never reach the console.
-/
import FileShell.Path
import FileShell.Line
import FileShell.IoError
import FileShell.Text.Quoted

namespace FileShell

namespace Log

/-- How much a record matters. -/
inductive Level where
  | warn | info
  deriving DecidableEq, Repr

/-- An event worth a record. -/
inductive Record where
  /-- A command that shows its status on the console was given a redirection. -/
  | redirectIgnored (command : Text) (redirect : Redirect)
  /-- The session moved. -/
  | directoryChanged (before after : Path)
  /-- A failure could not be shown. -/
  | reportLost (cause : IoError)
  /-- The console could not be flushed. -/
  | flushFailed (cause : IoError)
  /-- The history file could not be read. -/
  | historyNotLoaded (path : Path) (cause : IoError)
  /-- The history file could not be written. -/
  | historyNotSaved (path : Path) (cause : IoError)
  deriving DecidableEq, Repr

/-- The level of a record. -/
def Record.level : Record → Level
  | .directoryChanged _ _ => .info
  | _ => .warn

/-- How a redirection is written in a record. -/
def redirectText (r : Redirect) : Text :=
  let mode := match r.mode with
    | .overwrite => "Overwrite"
    | .append => "Append"
  mode.toList ++ '(' :: Quoted.quote r.target ++ [')']

/-- The wording of a record. -/
def Record.message : Record → Text
  | .redirectIgnored command r =>
    command ++ " does not support redirection; ".toList ++ redirectText r ++ " ignored".toList
  | .directoryChanged before after =>
    "working directory: ".toList ++ before.text ++ " -> ".toList ++ after.text
  | .reportLost e => "could not report error to console: ".toList ++ e.message
  | .flushFailed e => "could not flush console: ".toList ++ e.message
  | .historyNotLoaded p e =>
    "could not load history from ".toList ++ p.text ++ ": ".toList ++ e.message
  | .historyNotSaved p e =>
    "could not save history to ".toList ++ p.text ++ ": ".toList ++ e.message

end Log

end FileShell

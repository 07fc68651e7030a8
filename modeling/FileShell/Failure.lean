/-
FileShell.Failure — why a segment of a line failed.

Every failure is a cause with what the message names; `Failure.message` is
the text that stands after `Error: ` on the console. None of them ends a
session.
-/
import FileShell.IoError

namespace FileShell

/-- Why a segment failed. -/
inductive Failure where
  /-- Too few arguments; carries how the command is used. -/
  | usage (line : Text)
  /-- No command has this name. -/
  | unknownCommand (name : Text)
  /-- A redirection operator was the last token of its segment. -/
  | missingRedirectTarget (operator : Text)
  | notFound (path : Text)
  | fileNotFound (path : Text)
  | missingParent (path : Text)
  | notADirectory (path : Text)
  | isADirectory (path : Text)
  | directoryNotEmpty (path : Text)
  | directoryExists (path : Text)
  | fileExists (path : Text)
  | invalidDirectory (path : Text)
  | sourceNotFound (path : Text)
  | noSuchDirectory (path : Text)
  | noParentDirectory (path : Text)
  /-- The file system refused; `action` says what was tried. -/
  | io (action : Text) (cause : IoError)
  /-- The console refused what was written to it. -/
  | console (cause : IoError)
  deriving DecidableEq, Repr

namespace Failure

/-- The detail shown for a failure. -/
def message : Failure → Text
  | .usage line => "Usage: ".toList ++ line
  | .unknownCommand name => "Unknown command: ".toList ++ name
  | .missingRedirectTarget op => "Missing file name after '".toList ++ op ++ "'".toList
  | .notFound p => "No such file or directory: ".toList ++ p
  | .fileNotFound p => "File does not exist: ".toList ++ p
  | .missingParent p => "Parent directory does not exist: ".toList ++ p
  | .notADirectory p => "Not a directory: ".toList ++ p
  | .isADirectory p => "Cannot delete directory: ".toList ++ p ++ ". Use rmdir instead.".toList
  | .directoryNotEmpty p => "Directory is not empty: ".toList ++ p
  | .directoryExists p => "Directory already exists: ".toList ++ p
  | .fileExists p => "File already exists: ".toList ++ p
  | .invalidDirectory p => "Invalid directory: ".toList ++ p
  | .sourceNotFound p => "Source file does not exist: ".toList ++ p
  | .noSuchDirectory p => "Invalid path: No such directory: ".toList ++ p
  | .noParentDirectory p => "Invalid path: ".toList ++ p ++ " has no parent directory".toList
  | .io action cause => action ++ ": ".toList ++ cause.message
  | .console cause => "Console write failed: ".toList ++ cause.message

/-- The console line that shows a failure. -/
def line (f : Failure) : Text := "Error: ".toList ++ f.message ++ ['\n']

end Failure

end FileShell

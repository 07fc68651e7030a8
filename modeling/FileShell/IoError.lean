/-
FileShell.IoError — why a file, a device or a console said no.

An error is a cause. The operating system's causes are an enumeration
whose message and number are the system's own; it holds both refusals for
want of a right, but not the one that a read-only volume has for itself. A
path with a NUL character is refused before the system sees it, and any
other file system or console may bring an error of its own, with a kind
and a text.

The kind is what a command may act on, the message what it shows.
-/
import FileShell.Text

namespace FileShell

namespace IoError

/-- What sort of refusal an error is. -/
inductive Kind where
  | notFound | permissionDenied | alreadyExists | notADirectory | isADirectory
  | directoryNotEmpty | invalidInput | invalidData | invalidFilename | filesystemLoop
  | storageFull | crossesDevices | resourceBusy | other
  deriving DecidableEq, Repr

/-- The operating system's causes. -/
inductive Cause where
  | notPermitted | noEntry | accessDenied | busy | exists | crossesDevices | notADirectory
  | isADirectory | invalidArgument | noSpace | nameTooLong | notEmpty | tooManyLinks
  deriving DecidableEq, Repr

/-- The sort of refusal a cause is. -/
def Cause.kind : Cause → Kind
  | .notPermitted => .permissionDenied
  | .noEntry => .notFound
  | .accessDenied => .permissionDenied
  | .busy => .resourceBusy
  | .exists => .alreadyExists
  | .crossesDevices => .crossesDevices
  | .notADirectory => .notADirectory
  | .isADirectory => .isADirectory
  | .invalidArgument => .invalidInput
  | .noSpace => .storageFull
  | .nameTooLong => .invalidFilename
  | .notEmpty => .directoryNotEmpty
  | .tooManyLinks => .filesystemLoop

/-- The number the system gives a cause. -/
def Cause.number : Cause → Nat
  | .notPermitted => 1
  | .noEntry => 2
  | .accessDenied => 13
  | .busy => 16
  | .exists => 17
  | .crossesDevices => 18
  | .notADirectory => 20
  | .isADirectory => 21
  | .invalidArgument => 22
  | .noSpace => 28
  | .nameTooLong => 36
  | .notEmpty => 39
  | .tooManyLinks => 40

/-- What the system says of a cause. -/
def Cause.words : Cause → String
  | .notPermitted => "Operation not permitted"
  | .noEntry => "No such file or directory"
  | .accessDenied => "Permission denied"
  | .busy => "Device or resource busy"
  | .exists => "File exists"
  | .crossesDevices => "Invalid cross-device link"
  | .notADirectory => "Not a directory"
  | .isADirectory => "Is a directory"
  | .invalidArgument => "Invalid argument"
  | .noSpace => "No space left on device"
  | .nameTooLong => "File name too long"
  | .notEmpty => "Directory not empty"
  | .tooManyLinks => "Too many levels of symbolic links"

end IoError

/-- Why an operation on files or on the console failed. -/
inductive IoError where
  /-- The operating system refused. -/
  | system (cause : IoError.Cause)
  /-- A path holds a NUL character, which no system call can be given. -/
  | nulInPath
  /-- Bytes that should have been text are not. -/
  | notText
  /-- A path that should be made absolute is empty. -/
  | emptyPath
  /-- Another file system or console refused, in its own words. -/
  | custom (kind : IoError.Kind) (message : Text)
  deriving DecidableEq, Repr

namespace IoError

/-- The sort of refusal an error is. -/
def kind : IoError → Kind
  | .system c => c.kind
  | .nulInPath => .invalidInput
  | .notText => .invalidData
  | .emptyPath => .invalidInput
  | .custom k _ => k

/-- The text an error is shown as. -/
def message : IoError → Text
  | .system c =>
    c.words.toList ++ " (os error ".toList ++ Nat.toDigits 10 c.number ++ [')']
  | .nulInPath => "file name contained an unexpected NUL byte".toList
  | .notText => "stream did not contain valid UTF-8".toList
  | .emptyPath => "cannot make an empty path absolute".toList
  | .custom _ m => m

end IoError

end FileShell

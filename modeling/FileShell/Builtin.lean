/-
FileShell.Builtin — the eleven commands every session starts with.

`Builtin.Name` lists them. `Builtin` is one of them with its arguments
read: which arguments are missing is decided here, before anything is
asked of the file system, and surplus arguments are dropped. What each one
does is in `FileShell.Builtin.Output` (those whose output can be
redirected) and `FileShell.Builtin.Status` (those that change something
and say so on the console).
-/
import FileShell.Command

namespace FileShell

namespace Builtin

/-- The commands. -/
inductive Name where
  | echo | ls | cat | pwd | cd | mkdir | rmdir | rm | mv | touch | help
  deriving DecidableEq, Repr

namespace Name

/-- All of them. -/
def all : List Name := [.echo, .ls, .cat, .pwd, .cd, .mkdir, .rmdir, .rm, .mv, .touch, .help]

/-- The word that calls the command. -/
def text : Name → Text
  | .echo => "echo".toList
  | .ls => "ls".toList
  | .cat => "cat".toList
  | .pwd => "pwd".toList
  | .cd => "cd".toList
  | .mkdir => "mkdir".toList
  | .rmdir => "rmdir".toList
  | .rm => "rm".toList
  | .mv => "mv".toList
  | .touch => "touch".toList
  | .help => "help".toList

/-- Whether the command's output can be redirected. -/
def redirectable : Name → Bool
  | .echo | .ls | .cat => true
  | _ => false

end Name

/-- What to list, and how. -/
structure Listing where
  /-- Names that start with a dot too. -/
  showHidden : Bool := false
  /-- From last to first. -/
  reverse : Bool := false
  /-- The directory; the session's own if absent. -/
  path : Option Text := none
  deriving DecidableEq, Repr

/-- A listing after one more argument: a flag, or the directory. The last
directory named is the one listed. -/
def Listing.add (l : Listing) (arg : Text) : Listing :=
  if arg = ['-', 'a'] then { l with showHidden := true }
  else if arg = ['-', 'r'] then { l with reverse := true }
  else { l with path := some arg }

end Builtin

/-- A command with its arguments read. -/
inductive Builtin where
  | echo (message : Text)
  | ls (listing : Builtin.Listing)
  | cat (files : List Text)
  | pwd
  | cd (target : Text)
  | mkdir (directory : Text)
  | rmdir (directory : Text)
  | rm (file : Text)
  | mv (source destination : Text)
  | touch (file : Text)
  | help
  deriving DecidableEq, Repr

namespace Builtin

/-- The failure of a command that lacks arguments: how it is used. -/
def lacking (line : String) : Except Failure Builtin := .error (.usage line.toList)

/-- Read a command's arguments. -/
def ofArgs : Name → List Text → Except Failure Builtin
  | .echo, [] => lacking "echo <message> [> file | >> file]"
  | .echo, args => .ok (.echo (Text.joined ' ' args))
  | .ls, args => .ok (.ls (args.foldl Listing.add {}))
  | .cat, [] => lacking "cat <file1> <file2> ... [> file | >> file]"
  | .cat, args => .ok (.cat args)
  | .pwd, _ => .ok .pwd
  | .cd, [] => lacking "cd <path>"
  | .cd, a :: _ => .ok (.cd a)
  | .mkdir, [] => lacking "mkdir <directory>"
  | .mkdir, a :: _ => .ok (.mkdir a)
  | .rmdir, [] => lacking "rmdir <directory>"
  | .rmdir, a :: _ => .ok (.rmdir a)
  | .rm, [] => lacking "rm <file>"
  | .rm, a :: _ => .ok (.rm a)
  | .mv, a :: b :: _ => .ok (.mv a b)
  | .mv, _ => lacking "mv <source> <destination>"
  | .touch, [] => lacking "touch <filename>"
  | .touch, a :: _ => .ok (.touch a)
  | .help, _ => .ok .help

/-- What a command that succeeded leaves: its code, its output, and the
directory the session is in. -/
structure Success where
  code : ExitCode
  output : Bytes
  directory : Path

/-- Success without output, in the same directory. -/
def Success.quiet (dir : Path) : Success := ⟨0, [], dir⟩

end Builtin

end FileShell

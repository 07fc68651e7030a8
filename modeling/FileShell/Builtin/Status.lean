/-
FileShell.Builtin.Status — the commands that say on the console what they
have done.

Each of them makes its checks first, then at most one change, then prints
one line. The line comes last, so a console that refuses it makes the
command fail although the change is made; only the session's directory
waits for the line.
-/
import FileShell.Builtin
import FileShell.Path.Normal

namespace FileShell

namespace Builtin

open Attempt

/-! ## The session's directory -/

/-- Show the session's directory. -/
def runPwd (dir : Path) : Attempt Success := do
  say (dir.text ++ ['\n'])
  return .quiet dir

/-- The directory that `cd` means: the parent for `..`, else the argument's path. -/
def cdTarget (target : Text) (dir : Path) : Except Failure Path :=
  if target = ['.', '.'] then
    match dir.parent? with
    | some up => .ok up
    | none => .error (.noParentDirectory dir.text)
  else .ok (dir.resolve target)

/-- Move the session. -/
def runCd (target : Text) (dir : Path) : Attempt Success := do
  let place ← (cdTarget target dir : Attempt Path)
  if !(← ask (.isDirectory place)) then
    throw (Failure.noSuchDirectory target)
  note (.directoryChanged dir place)
  say ("Changed directory to: ".toList ++ place.text ++ ['\n'])
  return .quiet place

/-! ## Directories -/

/-- Why a directory could not be made. -/
def mkdirFailure (arg : Text) (e : IoError) : Failure :=
  match e.kind with
  | .alreadyExists => .directoryExists arg
  | .notFound => .missingParent arg
  | _ => .io "Could not create directory".toList e

/-- Make a directory. -/
def runMkdir (arg : Text) (dir : Path) : Attempt Success := do
  let place := dir.resolve arg
  orFail (mkdirFailure arg) (← ask (.createDirectory place))
  say ("Directory created successfully: ".toList ++ place.text ++ ['\n'])
  return .quiet dir

/-- Remove an empty directory. -/
def runRmdir (arg : Text) (dir : Path) : Attempt Success := do
  let place := dir.resolve arg
  if !(← ask (.exists place)) then
    throw (Failure.notFound arg)
  if !(← ask (.isDirectory place)) then
    throw (Failure.notADirectory arg)
  let names ← orFail (.io "Failed to read the directory".toList) (← ask (.entries place))
  if !names.isEmpty then
    throw (Failure.directoryNotEmpty arg)
  orFail (.io "Failed to delete the directory".toList) (← ask (.removeDirectory place))
  say ("Directory removed successfully: ".toList ++ place.text ++ ['\n'])
  return .quiet dir

/-! ## Files -/

/-- Remove a file. -/
def runRm (arg : Text) (dir : Path) : Attempt Success := do
  let place := dir.resolve arg
  if !(← ask (.exists place)) then
    throw (Failure.notFound arg)
  if ← ask (.isDirectory place) then
    throw (Failure.isADirectory arg)
  orFail (.io "Failed to delete the file".toList) (← ask (.removeFile place))
  say ("File deleted successfully: ".toList ++ arg ++ ['\n'])
  return .quiet dir

/-- Where a move ends: inside the destination, under the source's own
name, if the destination is a directory. -/
def moveTarget (source destination : Path) (intoDirectory : Bool) : Path :=
  if intoDirectory then
    match source.fileName? with
    | some base => destination.join ⟨base⟩
    | none => destination
  else destination

/-- Move or rename a file. -/
def runMv (source destination : Text) (dir : Path) : Attempt Success := do
  let origin := dir.resolve source
  if !(← ask (.exists origin)) then
    throw (Failure.sourceNotFound source)
  let goal := dir.resolve destination
  let target := moveTarget origin goal (← ask (.isDirectory goal))
  orFail (.io "Failed to move or rename".toList) (← ask (.move origin target))
  say ("Moved/Renamed successfully: ".toList ++ source ++ " to ".toList ++ target.text ++ ['\n'])
  return .quiet dir

/-- Why a file could not be made. -/
def touchFailure (arg : Text) (e : IoError) : Failure :=
  match e.kind with
  | .alreadyExists => .fileExists arg
  | .notFound => .missingParent arg
  | _ => .io "Failed to create file".toList e

/-- Make an empty file. -/
def runTouch (arg : Text) (dir : Path) : Attempt Success := do
  orFail (touchFailure arg) (← ask (.createFile (dir.resolve arg)))
  say ("File created: ".toList ++ arg ++ ['\n'])
  return .quiet dir

/-! ## Help -/

/-- The list of commands that `help` shows. -/
def helpText : Text :=
  "Supported commands:
pwd - Print the current directory
cd <path> - Change directory (absolute, relative or ..)
cat <file1> <file2> ... [> <file> | >> <file>] - Display file contents
mkdir <directory> - Create a new directory
rmdir <directory> - Remove an empty directory
rm <file> - Remove a file
mv <source> <destination> - Move or rename a file
touch <filename> - Create a new empty file
echo <message> [> <file> | >> <file>] - Write a message to the console or a file
ls [<directory>] [-a] [-r] [> <file> | >> <file>] - List directory entries
exit - Exit the shell
help - Display available commands
".toList

/-- Show the list of commands. -/
def runHelp (dir : Path) : Attempt Success := do
  say helpText
  return .quiet dir

end Builtin

end FileShell

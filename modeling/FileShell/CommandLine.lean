/-
FileShell.CommandLine — from the program's arguments to its exit status.

`plan` reads the arguments and settles where the session starts: a
directory that was asked for is made absolute and must be one, and the
check walks the path as it is written, before anything is folded. What is
left to do is a `Plan`: end at once, run one line, or run a session on
the standard input.
-/
import FileShell.Builtin.Table
import FileShell.Options
import FileShell.Repl

namespace FileShell

namespace CommandLine

/-- How the program ends: its exit status and what it writes to the
standard error. -/
structure Ending where
  status : Int
  errors : Text
  deriving DecidableEq, Repr

/-- What the arguments ask for. -/
inductive Plan where
  /-- Show something and end. -/
  | stop (output : Text) (ending : Ending)
  /-- Run one line. -/
  | runLine (line : Text) (directory : Path)
  /-- Run a session on the standard input. -/
  | session (history : Option Path) (directory : Path)

/-! ## Errors that end the program -/

/-- Causes on lines of their own, numbered. -/
def numbered (causes : List Text) : Text :=
  causes.zipIdx.flatMap fun (cause, i) =>
    "    ".toList ++ Nat.toDigits 10 i ++ ": ".toList ++ cause ++ ['\n']

/-- What an error that ends the program is shown as: the outermost reason,
then what caused it. -/
def errorText : List Text → Text
  | [] => []
  | [reason] => "Error: ".toList ++ reason ++ ['\n']
  | [reason, cause] =>
    "Error: ".toList ++ reason ++ "\n\nCaused by:\n    ".toList ++ cause ++ ['\n']
  | reason :: causes =>
    "Error: ".toList ++ reason ++ "\n\nCaused by:\n".toList ++ numbered causes

/-- The end for an error. -/
def Ending.error (chain : List Text) : Ending := ⟨1, errorText chain⟩

/-- The end for arguments that give no options; the wish for help is no error. -/
def refusalPlan (r : Options.Refusal) : Plan :=
  match r with
  | .helpWanted => .stop (r.message ++ ['\n']) ⟨0, []⟩
  | _ =>
    .stop [] ⟨1, r.message ++ "\nRun ".toList ++ Options.program
      ++ " --help for more information.\n".toList⟩

/-! ## Where to start -/

/-- A directory that was asked for, made absolute. -/
def absoluteDirectory (process : Except IoError Path) (dir : Path) : Except IoError Path :=
  if dir.text = [] then .error .emptyPath
  else if dir.isAbsolute then .ok (Path.absolute Path.root dir)
  else process.map fun p => Path.absolute p dir

/-- The directory to start in, or the reasons why there is none. -/
def startDirectory (process : Except IoError Path) (dir : Option Text) :
    Program (Except (List Text) Path) :=
  match dir with
  | none => return .ok (Path.start process.toOption)
  | some dir =>
    match absoluteDirectory process ⟨dir⟩ with
    | .error e => return .error ["can't resolve ".toList ++ dir, e.message]
    | .ok place => do
      if ← Program.call (.isDirectory place) then
        return .ok (Path.startIn process.toOption place)
      else
        return .error [place.text ++ " is not a directory".toList]

/-- What the arguments ask for. -/
def plan (process : Except IoError Path) (args : List Text) : Program Plan :=
  match Options.parse args with
  | .error r => return refusalPlan r
  | .ok o => do
    match ← startDirectory process o.directory with
    | .error chain => return .stop [] (.error chain)
    | .ok dir =>
      match o.command with
      | some line => return .runLine line dir
      | none => return .session (o.history.map Path.mk) dir

/-- The end of a session. -/
def sessionEnding : Except Repl.Error Unit → Ending
  | .ok () => ⟨0, []⟩
  | .error e => .error e.chain

/-- Carry out a plan, with the standard input at hand. -/
def carryOut (input : Bytes) : Plan → Program Ending
  | .stop output ending => do
    let _ ← Program.printText output
    return ending
  | .runLine line dir => do
    let (code, _) ← Shell.execute Builtin.table line dir
    return ⟨code, []⟩
  | .session history dir => do
    let (result, _) ← Repl.run Builtin.table history input dir
    return sessionEnding result

/-- The whole program: its arguments, its standard input, its end. -/
def run (process : Except IoError Path) (args : List Text) (input : Bytes) : Program Ending := do
  carryOut input (← plan process args)

end CommandLine

end FileShell

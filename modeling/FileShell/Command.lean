/-
FileShell.Command — what a command is, and the table that finds it by name.

A command is built from its arguments alone. It says whether its output
may be redirected, and it is a program that starts in a directory. What it
leaves is an `Outcome`: a result, the output it has written so far (also
when it failed), and the directory the session is in afterwards.

A table may hold several commands under one name; the one registered last
is found.
-/
import FileShell.Failure
import FileShell.Program

namespace FileShell

/-- How a segment ended: 0 for success. -/
abbrev ExitCode := Int

/-- What a command leaves behind. -/
structure Outcome where
  result : Except Failure ExitCode
  output : Bytes
  directory : Path

/-- A command with its arguments. -/
structure Command where
  /-- Whether `>` and `>>` divert its output. -/
  redirectable : Bool
  /-- What it does when it starts in a directory. -/
  run : Path → Program Outcome

/-- The commands of a session, by name. -/
structure CommandTable where
  entries : List (Text × (List Text → Command))

namespace CommandTable

/-- Add a command, hiding any other of the same name. -/
def register (table : CommandTable) (name : Text) (make : List Text → Command) :
    CommandTable :=
  ⟨(name, make) :: table.entries⟩

/-- The command of a name. -/
def find? (table : CommandTable) (name : Text) : Option (List Text → Command) :=
  table.entries.lookup name

theorem find?_register_self (table : CommandTable) (name : Text)
    (make : List Text → Command) : (table.register name make).find? name = some make := by
  simp [find?, register]

theorem find?_register_of_ne (table : CommandTable) {name other : Text}
    (make : List Text → Command) (h : other ≠ name) :
    (table.register name make).find? other = table.find? other := by
  have : (other == name) = false := by simpa using h
  simp [find?, register, List.lookup_cons, this]

end CommandTable

/-! ## Attempts: programs that may fail -/

/-- A program that ends with a value or with a failure. -/
abbrev Attempt (α : Type) := ExceptT Failure Program α

namespace Attempt

/-- Make one call to the file system. -/
def ask (c : Files.Call) : Attempt c.Answer := ExceptT.lift (Program.call c)

/-- Put an event on record. -/
def note (record : Log.Record) : Attempt Unit := ExceptT.lift (Program.note record)

/-- Go on with an answer, or fail for its reason. -/
def orFail {α : Type} (why : IoError → Failure) : Except IoError α → Attempt α
  | .ok a => pure a
  | .error e => throw (why e)

/-- Write text to the console. -/
def say (t : Text) : Attempt Unit := do
  orFail .console (← ExceptT.lift (Program.printText t))

/-- Show a failure on the console and go on. -/
def report (f : Failure) : Attempt Unit := say f.line

end Attempt

end FileShell

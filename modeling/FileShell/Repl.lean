/-
FileShell.Repl — reading lines and running them until told to stop.

A line of input is text with its backspaces applied and trimmed. A blank
one does nothing. Any other is remembered; if it says `exit`, in whatever
case, the session says so and ends, else it is run. The end of the input
ends the session too. Bytes that are not text end it at once.

`Repl.step` takes one line, so input may come line by line; `Repl.run`
takes it whole. The history file is read before the first line and written
after an ordinary end, never after a failure. It is the process's file:
its path is not taken from the session's directory.
-/
import FileShell.Shell
import FileShell.History
import FileShell.Text.Erase

namespace FileShell

namespace Repl

/-- Why a session ended in failure. -/
inductive Error where
  /-- A line of input is not text. -/
  | unreadable
  /-- The console refused the last line. -/
  | console (cause : IoError)
  deriving DecidableEq, Repr

/-- What is shown of an error: the outermost reason first, then what caused it. -/
def Error.chain : Error → List Text
  | .unreadable =>
    ["failed to read line".toList, IoError.notText.message, IoError.notText.message]
  | .console e => [e.message]

/-- What a session carries from line to line. -/
structure State where
  directory : Path
  history : History

/-- How a session goes on after a line. -/
inductive Next where
  /-- It reads another line. -/
  | more (state : State)
  /-- It stops, and this is how it ended. -/
  | stopped (result : Except Error Unit) (state : State)

/-! ## One line -/

/-- The text of a line of input, if it is text. -/
def typed? (raw : Bytes) : Option Text :=
  (Utf8.decode? raw).map fun _ => (Erase.applied (Utf8.decodeLossy (Lines.chomp raw))).trim

/-- A letter of the alphabet in lower case. -/
def lower (c : Char) : Char :=
  if 'A' ≤ c ∧ c ≤ 'Z' then Char.ofNat (c.toNat + 32) else c

/-- Whether a line asks the session to end. -/
def isExit (line : Text) : Bool := line.map lower = "exit".toList

/-- What stands in front of a line that is typed at a terminal. -/
def prompt : Text := "> ".toList

/-- What a session says when it is told to end. -/
def farewell : Text := "Exiting the command line interpreter.\n".toList

/-- Take one line of input. -/
def step (table : CommandTable) (raw : Bytes) (s : State) : Program Next :=
  match typed? raw with
  | none => return .stopped (.error .unreadable) s
  | some line =>
    if line = [] then return .more s
    else
      let s := { s with history := s.history.add line }
      if isExit line then do
        match ← Program.printText farewell with
        | .ok () => return .stopped (.ok ()) s
        | .error e => return .stopped (.error (.console e)) s
      else do
        let (_, dir) ← Shell.execute table line s.directory
        return .more { s with directory := dir }

/-- Take lines of input until the session stops or they end. -/
def steps (table : CommandTable) : List Bytes → State → Program (Except Error Unit × State)
  | [], s => return (.ok (), s)
  | raw :: rest, s => do
    match ← step table raw s with
    | .more s => steps table rest s
    | .stopped result s => return (result, s)

/-! ## The history file -/

/-- The history to start with. -/
def loadHistory (file : Option Path) : Program History :=
  match file with
  | none => return .empty
  | some path => do
    match ← Program.request (.loadHistory path) with
    | .error e =>
      Program.note (.historyNotLoaded path e)
      return .empty
    | .ok bytes =>
      match History.empty.load bytes with
      | (h, none) => return h
      | (h, some e) =>
        Program.note (.historyNotLoaded path e)
        return h

/-- Write the history, if there is a file for it and something new to write. -/
def saveHistory (file : Option Path) (h : History) : Program Unit :=
  match file with
  | none => return ()
  | some path =>
    if h.isDirty then do
      match ← Program.request (.saveHistory path h.content) with
      | .ok () => return ()
      | .error e => Program.note (.historyNotSaved path e)
    else return ()

/-- Put the history away after an ordinary end. -/
def finish (file : Option Path) (result : Except Error Unit) (h : History) : Program Unit :=
  match result with
  | .ok () => saveHistory file h
  | .error _ => return ()

/-- Run a session on a whole input: why it failed, if it did, and the
directory it is in afterwards. -/
def run (table : CommandTable) (history : Option Path) (input : Bytes) (dir : Path) :
    Program (Except Error Unit × Path) := do
  let h ← loadHistory history
  let (result, s) ← steps table (Lines.rawLines input) ⟨dir, h⟩
  finish history result s.history
  return (result, s.directory)

end Repl

end FileShell

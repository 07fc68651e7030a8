/-
FileShell.History — the lines a session remembers, and the file that keeps
them.

A history holds at most a hundred lines, the oldest first, never an empty
one and never the same line twice in a row. It knows how many of its lines
the file does not hold yet; it is written only if there are any.

The file starts with the line `#V2`. In the lines after it a backslash is
written twice and a newline as a backslash and an `n`; a line that breaks
this rule is taken as it stands. A file that starts otherwise is taken
line by line as it stands, its first line included.
-/
import FileShell.Text.Lines
import FileShell.Text.Utf8
import FileShell.IoError

namespace FileShell

/-- The lines a session remembers. -/
structure History where
  /-- Oldest first. -/
  entries : List Text
  /-- How many of the newest were added since the file was read. -/
  unsaved : Nat
  deriving DecidableEq, Repr

namespace History

/-- How many lines a history holds. -/
def capacity : Nat := 100

/-- The history that remembers nothing. -/
def empty : History := ⟨[], 0⟩

/-- The newest entries, as many as a history holds. -/
def newest (entries : List Text) : List Text := entries.drop (entries.length - capacity)

/-- Remember a line, unless it is empty or the one remembered last. -/
def add (h : History) (line : Text) : History :=
  if line = [] ∨ h.entries.getLast? = some line then h
  else
    let entries := newest (h.entries ++ [line])
    ⟨entries, min (h.unsaved + 1) entries.length⟩

/-! ## The file -/

/-- The line that marks the format. -/
def marker : Text := "#V2".toList

/-- How the file writes a line. -/
def escape (line : Text) : Text :=
  line.flatMap fun c =>
    if c = '\\' then ['\\', '\\'] else if c = '\n' then ['\\', 'n'] else [c]

/-- The line that an escaped one stands for, if it keeps the rule. -/
def unescape? : Text → Option Text
  | [] => some []
  | '\\' :: '\\' :: rest => (unescape? rest).map ('\\' :: ·)
  | '\\' :: 'n' :: rest => (unescape? rest).map ('\n' :: ·)
  | c :: rest => if c = '\\' then none else (unescape? rest).map (c :: ·)

/-- The line that a line of the file stands for. -/
def unescape (line : Text) : Text := (unescape? line).getD line

/-- The content of the file. -/
def content (h : History) : Bytes :=
  Utf8.encode (marker ++ ['\n'] ++ h.entries.flatMap fun e => escape e ++ ['\n'])

/-- The history after more lines of the file, up to the first that is not
text; and why it stopped there. -/
def addLines (escaped : Bool) : List Bytes → History → History × Option IoError
  | [], h => (h, none)
  | raw :: rest, h =>
    match Utf8.decode? raw with
    | none => (h, some .notText)
    | some _ =>
      let line := Utf8.decodeLossy (Lines.chomp raw)
      addLines escaped rest (h.add (if escaped then unescape line else line))

/-- The history after reading the file. What was read counts as saved,
unless the reading stopped early. -/
def load (h : History) (file : Bytes) : History × Option IoError :=
  match Lines.rawLines file with
  | [] => ({ h with unsaved := 0 }, none)
  | first :: rest =>
    let result :=
      match Utf8.decode? first with
      | some _ =>
        if Utf8.decodeLossy (Lines.chomp first) = marker then addLines true rest h
        else addLines false (first :: rest) h
      | none => (h, some .notText)
    match result with
    | (h, none) => ({ h with unsaved := 0 }, none)
    | (h, some e) => (h, some e)

/-- Whether the file has to be written. -/
def isDirty (h : History) : Bool := !h.entries.isEmpty && h.unsaved ≠ 0

end History

end FileShell

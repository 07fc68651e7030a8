/-
FileShell.Text.Lines — bytes as lines.

A line ends with a newline byte or with the end of the bytes, so bytes
that end with a newline have no empty line after it, and no bytes have
no line. `rawLines` keeps the newline on each line; `chomp` takes it off,
and with it one carriage return in front of it. A last line without a
newline keeps its carriage return.
-/
import FileShell.Text

namespace FileShell

namespace Lines

/-- The byte that ends a line. -/
def newline : UInt8 := 0x0A

/-- The byte that may stand in front of a newline. -/
def carriageReturn : UInt8 := 0x0D

/-- The lines of some bytes, each with its newline if it has one. -/
def rawLines : Bytes → List Bytes
  | [] => []
  | b :: rest =>
    if b = newline then [b] :: rawLines rest
    else match rawLines rest with
      | [] => [[b]]
      | l :: ls => (b :: l) :: ls

/-- Cutting into lines loses nothing. -/
theorem flatten_rawLines (b : Bytes) : (rawLines b).flatten = b := by
  induction b with
  | nil => rfl
  | cons b rest ih =>
    by_cases h : b = newline
    · simp [rawLines, h, ih]
    · simp only [rawLines, h, if_false]
      split
      · next e => rw [e] at ih; simpa using ih
      · next e => rw [e] at ih; simp at ih ⊢; exact ih

/-- A line without its newline and the carriage return in front of it. -/
def chomp (line : Bytes) : Bytes :=
  match line.reverse with
  | [] => []
  | b :: rest =>
    if b = newline then
      match rest with
      | [] => []
      | c :: rest => if c = carriageReturn then rest.reverse else (c :: rest).reverse
    else line

end Lines

end FileShell

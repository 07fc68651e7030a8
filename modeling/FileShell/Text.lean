/-
FileShell.Text — characters, bytes and the small vocabulary the rest of
the library cuts and joins them with.

Text is a list of characters and content is a list of bytes, so every
scan in the library is a recursion on a list and its laws are ordinary
inductions. `String` appears only at the edges: in literals and where a
program reads its arguments or prints.

* `Text.pieces` cuts at every occurrence of one character and keeps the
  empty pieces; `Text.joined` puts the separator back.
* `Text.trim` drops white space, in the Unicode sense, from both ends.
-/
import FileShell.Text.Blank

namespace FileShell

/-- A piece of text: any sequence of Unicode scalar values. -/
abbrev Text := List Char

/-- The content of a file or of an output: any sequence of bytes. -/
abbrev Bytes := List UInt8

namespace Text

/-! ## Cutting and joining at one character -/

/-- The pieces of a text between the occurrences of `sep`, empty ones
included; there is always at least one. -/
def pieces (sep : Char) : Text → List Text
  | [] => [[]]
  | c :: rest =>
    if c = sep then [] :: pieces sep rest
    else match pieces sep rest with
      | [] => [[c]]
      | p :: ps => (c :: p) :: ps

/-- The pieces put one after another with `sep` between them. -/
def joined (sep : Char) : List Text → Text
  | [] => []
  | [p] => p
  | p :: q :: ps => p ++ sep :: joined sep (q :: ps)

theorem pieces_ne_nil (sep : Char) (t : Text) : pieces sep t ≠ [] := by
  cases t with
  | nil => simp [pieces]
  | cons c rest =>
    by_cases h : c = sep
    · simp [pieces, h]
    · simp only [pieces, h, if_false]
      split <;> simp

/-- Cutting loses nothing: joining the pieces gives the text back. -/
theorem joined_pieces (sep : Char) (t : Text) : joined sep (pieces sep t) = t := by
  induction t with
  | nil => rfl
  | cons c rest ih =>
    by_cases h : c = sep
    · subst h
      cases hp : pieces c rest with
      | nil => exact absurd hp (pieces_ne_nil c rest)
      | cons p ps => rw [hp] at ih; simp [pieces, hp, joined, ih]
    · cases hp : pieces sep rest with
      | nil => exact absurd hp (pieces_ne_nil sep rest)
      | cons p ps =>
        rw [hp] at ih
        cases ps with
        | nil => simp [pieces, h, hp, joined] at ih ⊢; exact ih
        | cons q qs => simp [pieces, h, hp, joined] at ih ⊢; exact ih

/-! ## White space at the ends -/

/-- The text without the white space it starts with. -/
def trimStart (t : Text) : Text := t.dropWhile isBlank

/-- The text without the white space it ends with. -/
def trimEnd (t : Text) : Text := (t.reverse.dropWhile isBlank).reverse

/-- The text without white space at either end. -/
def trim (t : Text) : Text := trimEnd (trimStart t)

end Text

end FileShell

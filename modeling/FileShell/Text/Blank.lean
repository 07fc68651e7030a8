/-
FileShell.Text.Blank — which characters are white space.

The class is Unicode's White_Space property: twenty-five characters, of
which only the first six are ASCII. It decides where a line and its
segments are trimmed. It does not decide where tokens end: that is the
business of U+0020 alone, so a tab may sit inside a token.
-/

namespace FileShell

namespace Text

/-- The White_Space property, as ranges of code points. -/
def blankRanges : List (Nat × Nat) :=
  [(0x09, 0x0D), (0x20, 0x20), (0x85, 0x85), (0xA0, 0xA0), (0x1680, 0x1680),
   (0x2000, 0x200A), (0x2028, 0x2029), (0x202F, 0x202F), (0x205F, 0x205F),
   (0x3000, 0x3000)]

/-- Whether a character lies in one of the ranges of a table. -/
def inRanges (table : List (Nat × Nat)) (c : Char) : Bool :=
  table.any fun r => decide (r.1 ≤ c.toNat) && decide (c.toNat ≤ r.2)

/-- Whether a character is white space. -/
def isBlank (c : Char) : Bool := inRanges blankRanges c

end Text

end FileShell

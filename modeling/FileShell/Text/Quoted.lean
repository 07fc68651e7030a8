/-
FileShell.Text.Quoted — a text between double quotes, with nothing in it
that a log line could not show.

The quote, the backslash and the usual controls are escaped with a
backslash; any other unprintable character, and any mark that would join
the character before it, is spelt as its code point in lower-case
hexadecimal between braces. The two halfwidth sound marks of katakana join
the character before them as well, but are letters with a shape of their
own and stay as they are.
-/
import FileShell.Text.Cluster.Classes
import FileShell.Text.Printable

namespace FileShell

namespace Quoted

/-- A character as its code point in hexadecimal between braces. -/
def codePoint (c : Char) : Text :=
  "\\u\x7b".toList ++ Nat.toDigits 16 c.toNat ++ "\x7d".toList

/-- Whether a mark has to be spelt out, since it would not be seen by itself. -/
def isBareMark (c : Char) : Bool :=
  Text.inRanges Cluster.markRanges c && c != '\uFF9E' && c != '\uFF9F'

/-- How a quoted text writes one character. -/
def escape (c : Char) : Text :=
  if c = '"' then ['\\', '"']
  else if c = '\\' then ['\\', '\\']
  else if c = '\t' then ['\\', 't']
  else if c = '\n' then ['\\', 'n']
  else if c = '\r' then ['\\', 'r']
  else if c = '\x00' then ['\\', '0']
  else if isBareMark c || !Text.isPrintable c then codePoint c
  else [c]

/-- The text between double quotes. -/
def quote (t : Text) : Text := '"' :: t.flatMap escape ++ ['"']

end Quoted

end FileShell

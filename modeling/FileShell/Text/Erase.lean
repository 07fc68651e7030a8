/-
FileShell.Text.Erase — what a typed line says once its backspaces are
applied.

U+0008 takes away the cluster before it that is still there, or nothing
at the start of the line. A cluster is taken away by its size in bytes,
and that size is kept in a single byte: of a cluster of 256 bytes or more
only the remainder goes.
-/
import FileShell.Text.Cluster
import FileShell.Text.Utf8

namespace FileShell

namespace Erase

/-- The character that erases. -/
def backspace : Char := '\x08'

/-- A line in the making: its text, newest character first, and the sizes
that the next erasures take away. -/
structure Draft where
  newest : Text
  sizes : List Nat

/-- The text, newest character first, without its last `n` bytes. -/
def dropBytes (n : Nat) : Text → Text
  | [] => []
  | c :: rest => if n = 0 then c :: rest else dropBytes (n - (String.utf8EncodeChar c).length) rest

/-- The draft after one more cluster. -/
def Draft.type (d : Draft) (cluster : Text) : Draft :=
  if cluster = [backspace] then
    match d.sizes with
    | [] => d
    | n :: rest => ⟨dropBytes n d.newest, rest⟩
  else ⟨cluster.reverse ++ d.newest, Utf8.size cluster % 256 :: d.sizes⟩

/-- The line with its backspaces applied. -/
def applied (line : Text) : Text :=
  ((Cluster.clusters line).foldl Draft.type ⟨[], []⟩).newest.reverse

end Erase

end FileShell

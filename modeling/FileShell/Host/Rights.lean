/-
FileShell.Host.Rights — what a process may do with entries.

A tree says what is there. Rights say what a process may do with it: read
the entry at a place, write to it, make an entry there, take it away. They
stand for all that a system refuses for other reasons than its tree: modes
and owners, directories that let nobody take another's entries away,
volumes that cannot be written, volumes that hold their own entries only.
A refusal says why.

An operation asks for its rights last, when the tree has nothing against
it, and changes nothing if it is refused one. A copy and the removal behind
it are two operations, each with rights of its own. Where no rights are
named, everything is granted. Searching a directory is never refused: a path
may be followed wherever the tree lets it.
-/
import FileShell.Host
import FileShell.IoError

namespace FileShell

namespace Host

/-- What may be done with the entry at a place. -/
inductive Right where
  | read | write
  /-- Put an entry where none is. -/
  | make
  /-- Take the entry away, or let another one have its place. -/
  | remove
  deriving DecidableEq, Repr

/-- What a process may do with the entries of a machine. -/
structure Rights where
  grant : Right → Place → Except IoError.Cause Unit

namespace Rights

/-- Nothing is refused. -/
def all : Rights := ⟨fun _ _ => .ok ()⟩

@[simp] theorem grant_all (right : Right) (place : Place) : all.grant right place = .ok () := rfl

/-- The right to read what is at a spot. A directory that was removed has
nothing to read in it. -/
def grantRead (rights : Rights) : Spot → Except IoError.Cause Unit
  | .inTree place => rights.grant .read place
  | .removed _ => .ok ()

@[simp] theorem grantRead_all (spot : Spot) : all.grantRead spot = .ok () := by
  cases spot <;> rfl

end Rights

end Host

end FileShell

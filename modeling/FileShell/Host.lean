/-
FileShell.Host — the files of a machine, as a tree.

A `Node` is a directory, a file, a symbolic link or a device. A directory
belongs to a volume, and what is in it lives on that volume; a directory
whose volume differs from its parent's is a mount point. There are no hard
links, so a `Place`, the names from the root down, is the identity of an
entry, and the tree is plain data: two machines with the same tree hold
the same files.

* `Node.find?` reads the entry at a place.
* `Node.edit` changes the entries of the directory at a place;
  `Entries.put` and `Entries.remove` are the two changes there are.
* `Spot` is where one can stand: at a place, or in a directory that has
  been removed while somebody stood in it. Such a directory is empty for
  ever, takes no new entry, and still knows its way up.

The tree has no owners and no modes. What a process may do with it is said
beside it, in `FileShell.Host.Rights`, and unless it is said nothing is
refused for want of a right.
-/
import FileShell.Path

namespace FileShell

namespace Host

/-- The names from the root down to an entry. -/
abbrev Place := List Text

/-- A special file. -/
inductive Device where
  /-- Takes everything and keeps nothing. -/
  | null
  /-- Takes nothing. -/
  | full
  deriving DecidableEq, Repr

/-- What an entry is. -/
inductive Node where
  | directory (volume : Nat) (entries : List (Text × Node))
  | file (content : Bytes)
  | link (target : Path)
  | device (kind : Device)
  deriving Repr, Inhabited

/-- The entries of a directory, by name. -/
abbrev Entries := List (Text × Node)

namespace Entries

/-- The entry of a name. -/
def get? (es : Entries) (name : Text) : Option Node := es.lookup name

/-- The entries without a name. -/
def remove (es : Entries) (name : Text) : Entries := es.filter fun e => e.1 ≠ name

/-- The entries with a name given a node: in the place of the old one if
the name is taken, else at the end. -/
def put (es : Entries) (name : Text) (node : Node) : Entries :=
  match es with
  | [] => [(name, node)]
  | e :: rest => if e.1 = name then (name, node) :: rest else e :: put rest name node

end Entries

namespace Node

/-- Whether a node is a directory. -/
def isDirectory : Node → Bool
  | .directory _ _ => true
  | _ => false

/-- The entry of a name in a directory; nothing has entries but a directory. -/
def child? : Node → Text → Option Node
  | .directory _ es, name => Entries.get? es name
  | _, _ => none

/-- The node at a place below this one. -/
def find? : Node → Place → Option Node
  | node, [] => some node
  | node, name :: rest => (node.child? name).bind fun n => n.find? rest

/-- The node with the node at a place below it changed; as it was if there
is none. -/
def modify (f : Node → Node) : Place → Node → Node
  | [], node => f node
  | name :: rest, .directory v es =>
    match Entries.get? es name with
    | some n => .directory v (Entries.put es name (modify f rest n))
    | none => .directory v es
  | _ :: _, node => node

/-- A directory with its entries changed. -/
def withEntries (f : Entries → Entries) : Node → Node
  | .directory v es => .directory v (f es)
  | node => node

/-- The tree with the entries of the directory at a place changed. -/
def edit (place : Place) (f : Entries → Entries) (node : Node) : Node :=
  node.modify (withEntries f) place

/-- The volume of the directory at a place. -/
def volumeAt (root : Node) (place : Place) : Option Nat :=
  match root.find? place with
  | some (.directory v _) => some v
  | _ => none

end Node

/-- Where one can stand. -/
inductive Spot where
  /-- At a place of the tree. -/
  | inTree (place : Place)
  /-- In a directory that was removed from the one above. -/
  | removed (above : Spot)
  deriving DecidableEq, Repr

namespace Spot

/-- One step up; from the root this is the root. -/
def up : Spot → Spot
  | .inTree p => .inTree p.dropLast
  | .removed above => above

/-- The spot after the directory at a place is gone. -/
def without (gone : Place) : Spot → Spot
  | .inTree p => if p = gone then .removed (.inTree gone.dropLast) else .inTree p
  | .removed above => .removed (above.without gone)

/-- The spot after what was at one place is at another. -/
def moved (source target : Place) : Spot → Spot
  | .inTree p =>
    .inTree (if source.isPrefixOf p then target ++ p.drop source.length else p)
  | .removed above => .removed (above.moved source target)

end Spot

namespace Node

/-- The volume of the directory at a spot. -/
def volumeOf (root : Node) : Spot → Option Nat
  | .inTree p => root.volumeAt p
  | .removed above => root.volumeOf above

/-- What is at a spot. -/
def at? (root : Node) : Spot → Option Node
  | .inTree p => root.find? p
  | .removed above => (root.volumeOf above).map fun v => .directory v []

end Node

end Host

/-- A machine: its tree, and the directory that relative paths start from. -/
structure Host where
  root : Host.Node
  process : Host.Spot

end FileShell

/-
FileShell.Path — paths as they are written.

A path is its text. Nothing is forgotten when one is made: repeated
slashes, `.` and a trailing slash stay, because the operating system
gives a meaning to some of them. `Path.components` is the view in which
the rest of the library speaks of a path; it drops what never matters
(empty components, and `.` anywhere but at the start of a relative path).

* `join` appends a path to a directory; an absolute one replaces it.
* `parent?` takes the last component off and leaves the text in front of it.
* `fileName?` is the last component if it is an ordinary name.

`FileShell.Path.Normal` folds `.` and `..` away.
-/
import FileShell.Text

namespace FileShell

/-- A path, as text. -/
structure Path where
  text : Text
  deriving DecidableEq, Repr

namespace Path

/-- What a path is made of. -/
inductive Component where
  /-- The slash an absolute path starts with. -/
  | root
  /-- A `.` at the start of a relative path. -/
  | current
  /-- A `..`. -/
  | parent
  /-- An ordinary name. -/
  | name (n : Text)
  deriving DecidableEq, Repr

/-- The text of one component. -/
def Component.text : Component → Text
  | .root => ['/']
  | .current => ['.']
  | .parent => ['.', '.']
  | .name n => n

/-- Whether a path starts at the root. -/
def isAbsolute (p : Path) : Bool :=
  match p.text with
  | '/' :: _ => true
  | _ => false

/-- A piece between slashes that stands for no component of its own. -/
def isFiller (piece : Text) : Bool := piece = [] || piece = ['.']

/-- The component that a piece between slashes stands for, if any. -/
def ofPiece? (piece : Text) : Option Component :=
  if isFiller piece then none
  else if piece = ['.', '.'] then some .parent
  else some (.name piece)

/-! ## The head of a path and its body -/

/-- A path cut into its head (`/`, a leading `.`, or nothing) and the
pieces between the slashes of the rest. -/
def split (p : Path) : Option Component × List Text :=
  match p.text with
  | '/' :: rest => (some .root, Text.pieces '/' rest)
  | ['.'] => (some .current, [])
  | '.' :: '/' :: rest => (some .current, Text.pieces '/' rest)
  | t => (none, Text.pieces '/' t)

/-- The components of a path, in order. -/
def components (p : Path) : List Component :=
  let (head, body) := p.split
  head.toList ++ body.filterMap ofPiece?

/-- The path whose components are the given ones: a root in front, single
slashes between the others. -/
def ofComponents : List Component → Path
  | .root :: rest => ⟨'/' :: Text.joined '/' (rest.map Component.text)⟩
  | cs => ⟨Text.joined '/' (cs.map Component.text)⟩

/-! ## Making paths from paths -/

/-- A path taken from a directory. An absolute path is itself; a relative
one is appended, after a slash unless the directory is empty or ends in one. -/
def join (dir p : Path) : Path :=
  if p.isAbsolute then p
  else
    match dir.text.getLast? with
    | none => p
    | some '/' => ⟨dir.text ++ p.text⟩
    | some _ => ⟨dir.text ++ '/' :: p.text⟩

/-- The head of a path as the text in front of its body, with the slash
that parts a leading `.` from what follows. -/
def withBody (head : Option Component) (body : List Text) : Path :=
  let rest := Text.joined '/' body
  match head with
  | some .root => ⟨'/' :: rest⟩
  | some c => if rest = [] then ⟨c.text⟩ else ⟨c.text ++ '/' :: rest⟩
  | none => ⟨rest⟩

/-- The path without its last component, if it has one other than the
root. What stands in front of the component stays as it was written. -/
def parent? (p : Path) : Option Path :=
  let (head, body) := p.split
  match body.reverse.dropWhile isFiller with
  | _ :: before => some (withBody head (before.dropWhile isFiller).reverse)
  | [] =>
    match head with
    | some .current => some ⟨[]⟩
    | _ => none

/-- The last component, if it is an ordinary name. -/
def fileName? (p : Path) : Option Text :=
  match p.components.getLast? with
  | some (.name n) => some n
  | _ => none

end Path

end FileShell

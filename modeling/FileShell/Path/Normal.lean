/-
FileShell.Path.Normal — folding `.` and `..` without asking the disk.

`Path.normal` reads the components from left to right onto a stack whose
top is the head of a list: `.` is dropped, `..` takes an ordinary name off
the stack, stays at the root where it is, and otherwise is kept. So the
result is a root followed by names, or some `..` followed by names, or a
lone `.` where nothing is left. Symbolic links are not looked at, and the
folded path may name another place than the written one.

`Path.resolve` is how a command's argument becomes the path it works on,
and `Path.start` how a session's first directory comes about.
-/
import FileShell.Path

namespace FileShell

namespace Path

/-- One component on top of the folded ones. -/
def foldStep (stack : List Component) : Component → List Component
  | .current => stack
  | .parent =>
    match stack with
    | .name _ :: rest => rest
    | .root :: _ => stack
    | _ => .parent :: stack
  | c => c :: stack

/-- The components with `.` dropped and `..` folded, in order. -/
def fold (cs : List Component) : List Component := (cs.foldl foldStep []).reverse

/-- The path with `.` dropped and `..` folded; `.` itself if nothing is left. -/
def normal (p : Path) : Path :=
  match fold p.components with
  | [] => ⟨['.']⟩
  | cs => ofComponents cs

/-- An argument taken from a directory and folded. -/
def resolve (dir : Path) (arg : Text) : Path := (dir.join ⟨arg⟩).normal

/-- The root directory. -/
def root : Path := ⟨['/']⟩

/-- The directory a session starts in. A relative one is taken from the
process directory, unless asking for that fails. -/
def startIn (process : Option Path) (dir : Path) : Path :=
  if dir.isAbsolute then dir.normal
  else match process with
    | some p => (p.join dir).normal
    | none => dir.normal

/-- The directory a session starts in when none is given: the process
directory, or the root where asking for it fails. -/
def start (process : Option Path) : Path :=
  startIn process (process.getD root)

/-- A path made absolute for a check that walks it: taken from the process
directory, without `.` and repeated slashes, with every `..` kept. Exactly
two leading slashes and a trailing slash stay, since a system may give
them a meaning. -/
def absolute (process : Path) (p : Path) : Path :=
  let steps := p.components.filter fun c => c ≠ .root ∧ c ≠ .current
  let base : Path :=
    match p.text with
    | ['/', '/'] => ⟨['/', '/']⟩
    | '/' :: '/' :: c :: _ => if c = '/' then root else ⟨['/', '/']⟩
    | '/' :: _ => root
    | _ => process
  let whole := steps.foldl (fun dir c => dir.join ⟨c.text⟩) base
  if p.text.getLast? = some '/' then whole.join ⟨[]⟩ else whole

end Path

end FileShell

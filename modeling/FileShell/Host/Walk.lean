/-
FileShell.Host.Walk — how the operating system follows a path.

A path is cut into steps: names, `.`, `..`, and a last step for a trailing
slash, which asks that what precedes it be a directory. `advance` takes
steps from a place until they are used up, a name is missing, or a
symbolic link has to be followed; `follow` puts the link's target in front
of the steps that are left and goes on, forty times at most.

`..` is the parent of the place reached, not of what was written, so a
link followed on the way changes what `..` means.

* `Host.locate` follows a path all the way and is what reading, listing
  and testing use; opening for writing follows it all the way too, but may
  end where the last name is still free.
* `Host.parent` follows a path up to its last name and is what making,
  removing and renaming use: the last name itself is not followed.
-/
import FileShell.Host
import FileShell.IoError
import FileShell.Text.Utf8

namespace FileShell

namespace Host

open IoError (Cause)

/-! ## Steps -/

/-- One step along a path. -/
inductive Step where
  | name (n : Text)
  /-- `.` -/
  | stay
  /-- `..` -/
  | up
  /-- The slash a path ends with. -/
  | slash
  deriving DecidableEq, Repr

/-- The step that a piece between slashes asks for. -/
def Step.ofPiece? (piece : Text) : Option Step :=
  if piece = [] then none
  else if piece = ['.'] then some .stay
  else if piece = ['.', '.'] then some .up
  else some (.name piece)

/-- The steps of a path. A path of slashes alone has none. -/
def steps (p : Path) : List Step :=
  let body := (Text.pieces '/' p.text).filterMap Step.ofPiece?
  if body ≠ [] ∧ p.text.getLast? = some '/' then body ++ [.slash] else body

/-- How many bytes a name may have. -/
def nameLimit : Nat := 255

/-- How many bytes a path may have. -/
def pathLimit : Nat := 4095

/-- How many links one walk may follow. -/
def linkLimit : Nat := 40

/-! ## The walk -/

/-- Where steps lead without following another link. -/
inductive Advance where
  /-- All steps are taken. -/
  | arrived (spot : Spot)
  /-- The last step names nothing in this directory. -/
  | missing (directory : Place) (name : Text)
  /-- A link in this directory has to be followed before the rest. -/
  | detour (directory : Place) (target : Path) (rest : List Step)
  deriving DecidableEq, Repr

/-- The place of a directory in which names can be looked up: one that has
been removed refuses every name. -/
def Spot.open? : Spot → Except Cause Place
  | .inTree p => .ok p
  | .removed _ => .error .noEntry

/-- Take steps from a spot. A walk that may make what it does not find is
`making`: it refuses a last name with a slash after it, which only a
directory could bear. -/
def advance (root : Node) (making : Bool) : Spot → List Step → Except Cause Advance
  | here, [] => .ok (.arrived here)
  | here, step :: rest =>
    match root.at? here with
    | none => .error .noEntry
    | some node =>
      if !node.isDirectory then .error .notADirectory
      else match step with
        | .stay | .slash => advance root making here rest
        | .up => advance root making here.up rest
        | .name n =>
          if making && rest = [.slash] then .error .isADirectory
          else match here.open? with
            | .error e => .error e
            | .ok place =>
              if nameLimit < Utf8.size n then .error .nameTooLong
              else match node.child? n with
                | none => if rest = [] then .ok (.missing place n) else .error .noEntry
                | some (.link target) => .ok (.detour place target rest)
                | some _ => advance root making (.inTree (place ++ [n])) rest

/-- Where a walk ends. -/
inductive Found where
  /-- At an entry. -/
  | entry (spot : Spot)
  /-- In a directory that lacks the last name. -/
  | vacant (directory : Place) (name : Text)
  deriving DecidableEq, Repr

/-- Take steps from a spot, following at most the given number of links. -/
def follow (root : Node) (making : Bool) : Nat → Spot → List Step → Except Cause Found
  | links, here, ss =>
    match advance root making here ss with
    | .error e => .error e
    | .ok (.arrived p) => .ok (.entry p)
    | .ok (.missing d n) => .ok (.vacant d n)
    | .ok (.detour d target rest) =>
      if target.text = [] then .error .noEntry
      else match links with
        | 0 => .error .tooManyLinks
        | links + 1 =>
          follow root making links (.inTree (if target.isAbsolute then [] else d))
            (steps target ++ rest)

/-! ## Whole paths -/

/-- Whether a path holds the character that no system call can be given. -/
def hasNul (p : Path) : Bool := p.text.contains '\x00'

/-- Where a path's walk starts. -/
def origin (h : Host) (p : Path) : Except Cause Spot :=
  if p.text = [] then .error .noEntry
  else if pathLimit < Utf8.size p.text then .error .nameTooLong
  else if p.isAbsolute then .ok (.inTree [])
  else .ok h.process

/-- Walk a path that the system has been given. -/
def walk (h : Host) (making : Bool) (p : Path) : Except Cause Found :=
  match h.origin p with
  | .error e => .error e
  | .ok start => follow h.root making linkLimit start (steps p)

/-- The spot a path leads to, and what is there. -/
def reach (h : Host) (p : Path) : Except Cause (Spot × Node) :=
  match h.walk false p with
  | .error e => .error e
  | .ok (.vacant _ _) => .error .noEntry
  | .ok (.entry spot) =>
    match h.root.at? spot with
    | some node => .ok (spot, node)
    | none => .error .noEntry

/-- The spot a path leads to, and what is there. -/
def locate (h : Host) (p : Path) : Except IoError (Spot × Node) :=
  if hasNul p then .error .nulInPath else (h.reach p).mapError .system

/-- The path of the process directory, unless it has been removed. -/
def currentDirectory (h : Host) : Except IoError Path :=
  match h.process with
  | .inTree place => .ok ⟨'/' :: Text.joined '/' place⟩
  | .removed _ => .error (.system .noEntry)

/-! ## Up to the last name -/

/-- What a path ends with, apart from slashes. -/
inductive Ending where
  | name (n : Text)
  | stay
  | up
  /-- Nothing: the path is the root. -/
  | root
  deriving DecidableEq, Repr

/-- A path cut in front of its last name. -/
structure Split where
  /-- The directory in front. -/
  directory : Spot
  ending : Ending
  /-- Whether a slash follows the last name. -/
  slash : Bool
  deriving DecidableEq, Repr

/-- The steps in front of the last one, the last one, and whether a slash follows. -/
def splitSteps (ss : List Step) : List Step × Ending × Bool :=
  let slash := ss.getLast? = some .slash
  let body := if slash then ss.dropLast else ss
  match body.getLast? with
  | some (.name n) => (body.dropLast, .name n, slash)
  | some .stay => (body.dropLast, .stay, slash)
  | some .up => (body.dropLast, .up, slash)
  | _ => ([], .root, slash)

/-- Follow steps to a directory. -/
def followToDirectory (h : Host) (start : Spot) (ss : List Step) : Except Cause Spot :=
  match follow h.root false linkLimit start (ss ++ [.slash]) with
  | .error e => .error e
  | .ok (.vacant _ _) => .error .noEntry
  | .ok (.entry spot) => .ok spot

/-- Follow a path up to its last name. -/
def parent (h : Host) (p : Path) : Except Cause Split :=
  match h.origin p with
  | .error e => .error e
  | .ok start =>
    let (front, ending, slash) := splitSteps (steps p)
    match h.followToDirectory start front with
    | .error e => .error e
    | .ok directory => .ok ⟨directory, ending, slash⟩

/-- The entry of a name in a directory, if there is one. -/
def lookup (h : Host) (directory : Place) (name : Text) : Except Cause (Option Node) :=
  if nameLimit < Utf8.size name then .error .nameTooLong
  else .ok (h.root.find? (directory ++ [name]))

end Host

end FileShell

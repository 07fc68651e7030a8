/-
FileShell.Files.Scripted — a file system that answers some calls by rote.

A `Rule` names an operation and a path, and gives the answer. The first
rule that fits a call answers it and nothing happens; a call that no rule
fits goes to the file system underneath. A move is known by its source.
A reader is asked for its items as it was opened: no rule comes between.

With rules one can put a session before a file system that fails where no
disk would, or that contradicts itself.
-/
import FileShell.Files

namespace FileShell

namespace Scripted

open Files

/-- The operations that a rule can answer. -/
inductive Operation where
  | exists | isDirectory | entries | createDirectory | removeDirectory | removeFile
  | move | createFile | readLines | write
  deriving DecidableEq, Repr

/-- The operation and the path by which a rule knows a call. -/
def known : Call → Option (Operation × Path)
  | .exists p => some (.exists, p)
  | .isDirectory p => some (.isDirectory, p)
  | .entries p => some (.entries, p)
  | .createDirectory p => some (.createDirectory, p)
  | .removeDirectory p => some (.removeDirectory, p)
  | .removeFile p => some (.removeFile, p)
  | .move p _ => some (.move, p)
  | .createFile p => some (.createFile, p)
  | .readLines p => some (.readLines, p)
  | .nextLine _ => none
  | .write p _ _ => some (.write, p)

/-- Where a scripted write fails. -/
inductive Stage where
  | opening | writing | flushing
  deriving DecidableEq, Repr

/-- What a rule answers; each field speaks for the calls whose answer has
its shape. -/
structure Reply where
  /-- For tests of existence and kind. -/
  holds : Bool := false
  /-- Why the call fails, if it does. -/
  error : Option IoError := none
  /-- For a write that fails: where. -/
  stage : Stage := .opening
  /-- The names of a directory, in this order. -/
  names : List Text := []
  /-- The items of a file that is read. -/
  items : List LineItem := []

/-- One line of the script. -/
structure Rule where
  operation : Operation
  /-- The path it speaks of; every path if absent. -/
  path : Option Path
  reply : Reply

/-- Whether a rule answers a call. -/
def Rule.fits (r : Rule) (c : Call) : Bool :=
  match known c with
  | some (operation, path) => r.operation = operation && (r.path = none || r.path = some path)
  | none => false

/-- A reply without a value. -/
def Reply.unit (r : Reply) : Except IoError Unit :=
  match r.error with
  | some e => .error e
  | none => .ok ()

/-- A reply to a write. Writing no bytes at all cannot fail; opening and
flushing can. -/
def Reply.write (r : Reply) (content : Bytes) : Except WriteError Unit :=
  match r.error, r.stage with
  | none, _ => .ok ()
  | some e, .opening => .error (.opening e)
  | some e, .writing => if content = [] then .ok () else .error (.writing e)
  | some e, .flushing => .error (.writing e)

/-- What a reply says to a call. -/
def Reply.answer (r : Reply) : (c : Call) → c.Answer
  | .exists _ => r.holds
  | .isDirectory _ => r.holds
  | .entries _ => r.unit.map fun _ => r.names
  | .createDirectory _ => r.unit
  | .removeDirectory _ => r.unit
  | .removeFile _ => r.unit
  | .move _ _ => r.unit
  | .createFile _ => r.unit
  | .readLines _ => r.unit.map fun _ => .of r.items
  | .nextLine reader => reader.next
  | .write _ _ content => r.write content

end Scripted

/-- A file system with a script in front of it. -/
def FileSystem.scripted {φ : Type} (rules : List Scripted.Rule) (base : FileSystem φ) :
    FileSystem φ where
  answer c s :=
    match rules.find? fun r => r.fits c with
    | some r => (r.reply.answer c, s)
    | none => base.answer c s

end FileShell

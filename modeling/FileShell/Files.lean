/-
FileShell.Files — what the commands ask of a file system.

A `Call` is one question or one order, and `Call.Answer` is the type of
what comes back. A `FileSystem` is any way to answer every call from a
state; the commands know nothing else of it, so a statement about them
ranges over every file system there can be: one that forgets, one that
contradicts itself, one that always refuses.

Reading is done item by item. Opening a file gives a `Reader`, and asking
that for an item, a line or a failure, gives the item and the reader to ask
for the next one, or nothing at the end. A reader may be asked on behind a
failure. It says how often it makes sense to ask at the most, so that a
program which reads to the end is a finite tree.

Writing is one call: the target is opened, the content is written and the
target is flushed, and a refusal says which side of the opening it is on.
-/
import FileShell.Path
import FileShell.Line
import FileShell.IoError

namespace FileShell

namespace Files

/-- One item of a file that is read line by line. -/
abbrev LineItem := Except IoError Text

/-- A file that is being read. Only the file system that opened it looks
into it. -/
structure Reader where
  /-- How many times it can be asked for an item, at the most. -/
  left : Nat
  /-- The items that are unread, as far as the reader has them with it. -/
  unread : List LineItem
  deriving Repr

/-- The reader of some items. All of them can be asked for, and the end. -/
def Reader.of (items : List LineItem) : Reader := ⟨items.length + 1, items⟩

/-- The next item of a reader that has them with it, and the reader for the
one after. -/
def Reader.next (r : Reader) : Option (LineItem × Reader) :=
  match r.unread with
  | [] => none
  | item :: rest => some (item, ⟨r.left - 1, rest⟩)

/-- One question or order to a file system. -/
inductive Call where
  /-- Does the path lead to anything? -/
  | exists (path : Path)
  /-- Does the path lead to a directory? -/
  | isDirectory (path : Path)
  /-- The names in a directory, in any order. -/
  | entries (path : Path)
  /-- Make one directory. -/
  | createDirectory (path : Path)
  /-- Remove a directory that is empty. -/
  | removeDirectory (path : Path)
  /-- Remove anything but a directory. -/
  | removeFile (path : Path)
  /-- Give what is at `source` the path `target`. -/
  | move (source target : Path)
  /-- Make an empty file where there is nothing. -/
  | createFile (path : Path)
  /-- Open a file for its lines. -/
  | readLines (path : Path)
  /-- The next item of a file that is being read. -/
  | nextLine (reader : Reader)
  /-- Open a file for writing, write the content and flush. -/
  | write (path : Path) (mode : WriteMode) (content : Bytes)
  deriving Repr

/-- Why a write failed, and on which side of the opening. -/
inductive WriteError where
  /-- The target could not be opened; nothing happened to it. -/
  | opening (cause : IoError)
  /-- The target was opened, and writing or flushing failed. -/
  | writing (cause : IoError)
  deriving DecidableEq, Repr

/-- The refusal behind a failed write. -/
def WriteError.cause : WriteError → IoError
  | .opening c => c
  | .writing c => c

/-- What comes back from a call. -/
abbrev Call.Answer : Call → Type
  | .exists _ => Bool
  | .isDirectory _ => Bool
  | .entries _ => Except IoError (List Text)
  | .createDirectory _ => Except IoError Unit
  | .removeDirectory _ => Except IoError Unit
  | .removeFile _ => Except IoError Unit
  | .move _ _ => Except IoError Unit
  | .createFile _ => Except IoError Unit
  | .readLines _ => Except IoError Reader
  | .nextLine _ => Option (LineItem × Reader)
  | .write _ _ _ => Except WriteError Unit

end Files

/-- A way to answer every call from a state. -/
structure FileSystem (φ : Type) where
  answer : (call : Files.Call) → φ → call.Answer × φ

end FileShell

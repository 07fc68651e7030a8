/-
FileShell.Host.FileSystem — a machine as a file system, and as the keeper
of the history file.
-/
import FileShell.Host.Move
import FileShell.Program

namespace FileShell

namespace Host

/-- A machine answers every call about its own tree, as far as rights go. -/
def answer (call : Files.Call) (h : Host) (rights : Rights := .all) : call.Answer × Host :=
  match call with
  | .exists p => (h.exists? p, h)
  | .isDirectory p => (h.isDirectory p, h)
  | .entries p => (h.entries p rights, h)
  | .createDirectory p => h.createDirectory p rights
  | .removeDirectory p => h.removeDirectory p rights
  | .removeFile p => h.removeFile p rights
  | .move source target => h.move source target rights
  | .createFile p => h.createFile p rights
  | .readLines p => ((h.readLines p rights).map .of, h)
  | .nextLine reader => (reader.next, h)
  | .write p mode content => h.write p mode content rights

/-- The file system of a machine, for a process with such rights. -/
def fileSystem (rights : Rights := .all) : FileSystem Host where
  answer call h := answer call h rights

/-- Replace the content of a file. -/
def saveHistory (p : Path) (content : Bytes) (h : Host) (rights : Rights := .all) :
    Except IoError Unit × Host :=
  match h.write p .overwrite content rights with
  | (.error e, h) => (.error e.cause, h)
  | (.ok (), h) => (.ok (), h)

/-- A machine with a console. The commands may work on any file system
over the machine; the history file is the machine's own, as far as rights go. -/
def world {κ : Type} (files : FileSystem Host) (console : Console κ) (rights : Rights := .all) :
    World Host κ where
  files := files
  console := console
  loadHistory p h := h.readAll p rights
  saveHistory p content h := h.saveHistory p content rights

end Host

end FileShell

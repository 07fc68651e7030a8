/-
FileShell.Main — the program on the real files and the real terminal.

This module only carries requests to the system and answers back. What is
asked, and what is done with an answer, is in the programs it runs. A
session reads its input line by line, so that each line is run before the
next one is read.
-/
import FileShell.CommandLine
import FileShell.Host.Move

namespace FileShell

namespace Main

/-! ## The system's words -/

/-- A path as the system's calls take it. -/
def systemPath (p : Path) :=
  ({ root := String.ofList p.text, fileName := "" } : IO.FS.DirEntry).root

/-- The causes that the system numbers. -/
def causes : List IoError.Cause :=
  [.notPermitted, .noEntry, .accessDenied, .busy, .exists, .crossesDevices, .notADirectory,
   .isADirectory, .invalidArgument, .noSpace, .nameTooLong, .notEmpty, .tooManyLinks]

/-- The number that a refusal of the system carries, if any. -/
def numberOf : IO.Error → Option UInt32
  | .alreadyExists _ n _ | .invalidArgument _ n _ | .permissionDenied _ n _
  | .resourceExhausted _ n _ | .inappropriateType _ n _ | .noSuchThing _ n _ => some n
  | .otherError n _ | .resourceBusy n _ | .resourceVanished n _
  | .unsupportedOperation n _ | .hardwareFault n _ | .unsatisfiedConstraints n _
  | .illegalOperation n _ | .protocolError n _ | .timeExpired n _ => some n
  | .interrupted _ n _ | .noFileOrDirectory _ n _ => some n
  | .unexpectedEof | .userError _ => none

/-- A number as the system documents it: some calls give it negated. -/
def documented (n : UInt32) : Nat :=
  if n < 0x80000000 then n.toNat else (0 - n).toNat

/-- A refusal of the system as an error of the library. -/
def errorOf (e : IO.Error) : IoError :=
  match (numberOf e).bind fun n => causes.find? fun c => c.number = documented n with
  | some c => .system c
  | none => .custom .other (toString e).toList

/-- Do something, and take a refusal as an answer. -/
def attempt {α : Type} (act : IO α) : IO (Except IoError α) := do
  try return .ok (← act)
  catch e => return .error (errorOf e)

/-- Do something with a path that the system can be given. -/
def withPath {α : Type} (p : Path) (act : IO α) : IO (Except IoError α) :=
  if Host.hasNul p then return .error .nulInPath else attempt act

def bytesOf (b : ByteArray) : Bytes := b.toList

def arrayOf (b : Bytes) : ByteArray := ⟨b.toArray⟩

/-! ## Files -/

/-- Whether a path leads to a regular file. -/
def isFile (p : Path) : IO Bool := do
  match ← attempt (systemPath p).metadata with
  | .ok found => return found.type == .file
  | .error _ => return false

/-- Move, and copy a regular file where the system does not move. -/
def move (source target : Path) : IO (Except IoError Unit) := do
  match ← attempt (IO.FS.rename (systemPath source) (systemPath target)) with
  | .ok () => return .ok ()
  | .error e =>
    if e.kind = .crossesDevices && (← isFile source) then
      attempt do
        let original ← IO.FS.Handle.mk (systemPath source) .read
        let copy ← IO.FS.Handle.mk (systemPath target) .write
        copy.write (← original.readBinToEnd)
        copy.flush
        IO.FS.removeFile (systemPath source)
    else return .error e

/-- Read up to the next newline, and over it; nothing at the end. -/
partial def readRawLine (input : IO.FS.Stream) (newest : Bytes) : IO Bytes := do
  let chunk ← input.read 1
  match chunk.toList with
  | [] => return newest.reverse
  | b :: _ =>
    if b = Lines.newline then return (b :: newest).reverse
    else readRawLine input (b :: newest)

/-- Where the file that is being read lies, if there is one. -/
abbrev Desk := IO.Ref (Option IO.FS.Stream)

/-- The size that no file exceeds, so that none has more lines. -/
def largestSize : Nat := 0x8000000000000000

/-- Open a file for its lines. That a directory opens and cannot be read is
its first line's failure. -/
def readLines (desk : Desk) (p : Path) : IO (Except IoError Files.Reader) := do
  match ← withPath p (IO.FS.Handle.mk (systemPath p) .read) with
  | .error e => return .error e
  | .ok file =>
    desk.set (some (.ofHandle file))
    return .ok ⟨largestSize, []⟩

/-- The next line of the file that is being read. -/
def nextLine (desk : Desk) (reader : Files.Reader) :
    IO (Option (Files.LineItem × Files.Reader)) := do
  match ← desk.get with
  | none => return none
  | some input =>
    let rest : Files.Reader := ⟨reader.left - 1, []⟩
    match ← attempt (readRawLine input []) with
    | .error e => return some (.error e, rest)
    | .ok [] => return none
    | .ok raw => return some (.ok (Utf8.decodeLossy (Lines.chomp raw)), rest)

/-- Open a file, write content to it and flush. -/
def write (p : Path) (mode : WriteMode) (content : Bytes) :
    IO (Except Files.WriteError Unit) := do
  let how : IO.FS.Mode := match mode with
    | .overwrite => .write
    | .append => .append
  match ← withPath p (IO.FS.Handle.mk (systemPath p) how) with
  | .error e => return .error (.opening e)
  | .ok file =>
    match ← attempt (do file.write (arrayOf content); file.flush) with
    | .error e => return .error (.writing e)
    | .ok () => return .ok ()

/-- Answer one call about files. -/
def answerCall (desk : Desk) : (call : Files.Call) → IO call.Answer
  | .exists p => if Host.hasNul p then return false else (systemPath p).pathExists
  | .isDirectory p => if Host.hasNul p then return false else (systemPath p).isDir
  | .entries p => do
    let found ← withPath p (systemPath p).readDir
    return found.map fun es => es.toList.map fun e => e.fileName.toList
  | .createDirectory p => withPath p (IO.FS.createDir (systemPath p))
  | .removeDirectory p => withPath p (IO.FS.removeDir (systemPath p))
  | .removeFile p => withPath p (IO.FS.removeFile (systemPath p))
  | .move source target =>
    if Host.hasNul source || Host.hasNul target then return .error .nulInPath
    else move source target
  | .createFile p => withPath p do
    let _ ← IO.FS.Handle.mk (systemPath p) .writeNew
  | .readLines p => readLines desk p
  | .nextLine reader => nextLine desk reader
  | .write p mode content => write p mode content

/-! ## Programs -/

/-- Put an event on record, on the standard error. -/
def record (verbose : Bool) (r : Log.Record) : IO Unit := do
  match r.level with
  | .warn => IO.eprintln ("[WARN] " ++ String.ofList r.message)
  | .info => if verbose then IO.eprintln ("[INFO] " ++ String.ofList r.message)

/-- Answer one request. -/
def answer (verbose : Bool) (desk : Desk) : (r : Request) → IO r.Answer
  | .files call => answerCall desk call
  | .print content => do
    let out ← IO.getStdout
    attempt (out.write (arrayOf content))
  | .flush => do
    let out ← IO.getStdout
    attempt out.flush
  | .note r => record verbose r
  | .loadHistory p => do
    return (← withPath p (IO.FS.readBinFile (systemPath p))).map bytesOf
  | .saveHistory p content => withPath p (IO.FS.writeBinFile (systemPath p) (arrayOf content))

/-- Run a program, with a place for the file that it reads. -/
def performAt {α : Type} (verbose : Bool) (desk : Desk) : Program α → IO α
  | .done a => return a
  | .ask r next => do
    let a ← answer verbose desk r
    performAt verbose desk (next a)

/-- Run a program on the real files and the real terminal. -/
def perform {α : Type} (verbose : Bool) (p : Program α) : IO α := do
  performAt verbose (← IO.mkRef none) p

/-! ## Sessions -/

/-- Read lines and run them until the session stops. -/
partial def session (verbose : Bool) (input : IO.FS.Stream) (s : Repl.State) :
    IO (Except Repl.Error Unit × Repl.State) := do
  if ← input.isTty then
    IO.print (String.ofList Repl.prompt)
    (← IO.getStdout).flush
  match ← readRawLine input [] with
  | [] => return (.ok (), s)
  | raw =>
    match ← perform verbose (Repl.step Builtin.table raw s) with
    | .more s => session verbose input s
    | .stopped result s => return (result, s)

/-- Carry out what the arguments ask for. -/
def carryOut (verbose : Bool) : CommandLine.Plan → IO CommandLine.Ending
  | .session file dir => do
    let h ← perform verbose (Repl.loadHistory file)
    let (result, s) ← session verbose (← IO.getStdin) ⟨dir, h⟩
    perform verbose (Repl.finish file result s.history)
    return CommandLine.sessionEnding result
  | plan => perform verbose (CommandLine.carryOut [] plan)

end Main

end FileShell

open FileShell in
/-- Run the program. -/
def main (args : List String) : IO UInt32 := do
  let words := args.map String.toList
  let verbose := (Options.parse words).toOption.any fun o => o.verbose
  let process ← Main.attempt do return (⟨(← IO.currentDir).toString.toList⟩ : Path)
  let plan ← Main.perform verbose (CommandLine.plan process words)
  let ending ← Main.carryOut verbose plan
  IO.eprint (String.ofList ending.errors)
  (← IO.getStdout).flush
  return UInt32.ofNat (ending.status % 256).toNat

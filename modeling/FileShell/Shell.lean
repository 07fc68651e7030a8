/-
FileShell.Shell — running lines.

`Shell.run` runs one invocation: it finds the command, runs it where the
session is, and delivers its output if the command succeeded. Output is
delivered once and whole, after the command has ended: to the console, or
to the redirection's target as seen from the directory the command left
the session in. A command that shows its status on the console ignores a
redirection, and that is put on record.

`Shell.execute` runs the segments of a line one after another. Nothing
flows from one to the next but the state of the world and the session's
directory, and no failure keeps a later segment from running.
-/
import FileShell.Command
import FileShell.Line.Parser
import FileShell.Path.Normal

namespace FileShell

namespace Shell

/-! ## One invocation -/

/-- Deliver a command's output. -/
def deliver (dir : Path) (redirect : Option Redirect) (output : Bytes) :
    Program (Except Failure Unit) :=
  match redirect with
  | none => do
    match ← Program.request (.print output) with
    | .ok () => return .ok ()
    | .error e => return .error (.console e)
  | some r => do
    match ← Program.call (.write (dir.resolve r.target) r.mode output) with
    | .ok () => return .ok ()
    | .error e => return .error (.io "Error writing to file".toList e.cause)

/-- Run a command whose output may be redirected. -/
def runDelivering (c : Command) (redirect : Option Redirect) (dir : Path) :
    Program (Except Failure ExitCode × Path) := do
  let out ← c.run dir
  match out.result with
  | .error f => return (.error f, out.directory)
  | .ok code =>
    match ← deliver out.directory redirect out.output with
    | .error f => return (.error f, out.directory)
    | .ok () => return (.ok code, out.directory)

/-- Run a command that shows its status on the console; its output, if it
writes any, goes nowhere. -/
def runShowing (c : Command) (name : Text) (redirect : Option Redirect) (dir : Path) :
    Program (Except Failure ExitCode × Path) := do
  match redirect with
  | some r => Program.note (.redirectIgnored name r)
  | none => pure ()
  let out ← c.run dir
  return (out.result, out.directory)

/-- Run one invocation from a directory: its result, and the directory the
session is in afterwards. -/
def run (table : CommandTable) (i : Invocation) (dir : Path) :
    Program (Except Failure ExitCode × Path) :=
  match table.find? i.name with
  | none => return (.error (.unknownCommand i.name), dir)
  | some make =>
    let c := make i.args
    if c.redirectable then runDelivering c i.redirect dir
    else runShowing c i.name i.redirect dir

/-! ## Lines -/

/-- Show a segment's failure on the console. -/
def reportFailure (f : Failure) : Program Unit := do
  match ← Program.printText f.line with
  | .ok () => return ()
  | .error e => Program.note (.reportLost e)

/-- The exit code of a segment: its own, or 1 once its failure is shown. -/
def settle : Except Failure ExitCode → Program ExitCode
  | .ok code => return code
  | .error f => do
    reportFailure f
    return 1

/-- Run one segment, parsed or not. -/
def runEntry (table : CommandTable) (entry : Except Failure Invocation) (dir : Path) :
    Program (ExitCode × Path) :=
  match entry with
  | .error f => do
    let code ← settle (.error f)
    return (code, dir)
  | .ok i => do
    let (result, dir) ← run table i dir
    let code ← settle result
    return (code, dir)

/-- Run segments in order. The code is the last one's; `last` if there is none. -/
def runEntries (table : CommandTable) :
    List (Except Failure Invocation) → ExitCode → Path → Program (ExitCode × Path)
  | [], last, dir => return (last, dir)
  | entry :: rest, _, dir => do
    let (code, dir) ← runEntry table entry dir
    runEntries table rest code dir

/-- Flush the console; that it fails is only put on record. -/
def flush : Program Unit := do
  match ← Program.request .flush with
  | .ok () => return ()
  | .error e => Program.note (.flushFailed e)

/-- Run one line: the code of its last segment, 0 for a blank line, and the
directory the session is in afterwards. -/
def execute (table : CommandTable) (line : Text) (dir : Path) : Program (ExitCode × Path) := do
  let (code, dir) ← runEntries table (Line.invocations line) 0 dir
  flush
  return (code, dir)

end Shell

end FileShell

/-
FileShell.Proofs.Builtin.Trees — the commands written out as trees of
requests.

Each command is a `do` block over programs that may fail. Here the block
is opened once: what is asked first, and for each answer what is asked
next or how the command ends. Every statement about what a command does
starts from its tree, so a change to a command changes one equation here.

* `announce` is the common end of the commands that say what they have
  done: one line, and success if the console takes it.
* `complain` is how `cat` goes on after a file it could not read to the end.
-/
import FileShell.Builtin.Table

namespace FileShell

namespace Builtin

open Attempt

/-! ## Last lines -/

/-- How a command ends once the console has answered its last line. -/
def announced (s : Success) : Except IoError Unit → Except Failure Success
  | .ok () => .ok s
  | .error e => .error (.console e)

/-- Say a last line and end. -/
def announce (t : Text) (s : Success) : Program (Except Failure Success) :=
  .ask (.print t.bytes) fun r => .done (announced s r)

theorem run_say (t : Text) (s : Success) :
    (do say t; return s : Attempt Success).run = announce t s := by
  refine congrArg (Program.ask _) (funext fun r => ?_)
  cases r <;> rfl

/-! ## The session's directory, and help -/

theorem run_runPwd (dir : Path) :
    (runPwd dir).run = announce (dir.text ++ ['\n']) (.quiet dir) := run_say _ _

theorem run_runHelp (dir : Path) : (runHelp dir).run = announce helpText (.quiet dir) :=
  run_say _ _

theorem run_runCd (target : Text) (dir : Path) :
    (runCd target dir).run =
      match cdTarget target dir with
      | .error f => .done (.error f)
      | .ok place =>
        .ask (.files (.isDirectory place)) fun isDirectory =>
          if isDirectory then
            .ask (.note (.directoryChanged dir place)) fun _ =>
              announce ("Changed directory to: ".toList ++ place.text ++ ['\n']) (.quiet place)
          else .done (.error (.noSuchDirectory target)) := by
  unfold runCd
  cases cdTarget target dir with
  | error f => rfl
  | ok place =>
    refine congrArg (Program.ask _) (funext fun isDirectory => ?_)
    cases isDirectory with
    | false => rfl
    | true => exact congrArg (Program.ask _) (funext fun _ => run_say _ _)

/-! ## One change, after its checks -/

theorem run_runMkdir (arg : Text) (dir : Path) :
    (runMkdir arg dir).run =
      .ask (.files (.createDirectory (dir.resolve arg))) fun
        | .ok () =>
          announce ("Directory created successfully: ".toList ++ (dir.resolve arg).text ++ ['\n'])
            (.quiet dir)
        | .error e => .done (.error (mkdirFailure arg e)) := by
  refine congrArg (Program.ask _) (funext fun r => ?_)
  cases r with
  | error e => rfl
  | ok _ => exact run_say _ _

theorem run_runTouch (arg : Text) (dir : Path) :
    (runTouch arg dir).run =
      .ask (.files (.createFile (dir.resolve arg))) fun
        | .ok () => announce ("File created: ".toList ++ arg ++ ['\n']) (.quiet dir)
        | .error e => .done (.error (touchFailure arg e)) := by
  refine congrArg (Program.ask _) (funext fun r => ?_)
  cases r with
  | error e => rfl
  | ok _ => exact run_say _ _

theorem run_runRmdir (arg : Text) (dir : Path) :
    (runRmdir arg dir).run =
      .ask (.files (.exists (dir.resolve arg))) fun found =>
        if found then
          .ask (.files (.isDirectory (dir.resolve arg))) fun isDirectory =>
            if isDirectory then
              .ask (.files (.entries (dir.resolve arg))) fun
                | .ok [] =>
                  .ask (.files (.removeDirectory (dir.resolve arg))) fun
                    | .ok () =>
                      announce ("Directory removed successfully: ".toList
                        ++ (dir.resolve arg).text ++ ['\n']) (.quiet dir)
                    | .error e => .done (.error (.io "Failed to delete the directory".toList e))
                | .ok (_ :: _) => .done (.error (.directoryNotEmpty arg))
                | .error e => .done (.error (.io "Failed to read the directory".toList e))
            else .done (.error (.notADirectory arg))
        else .done (.error (.notFound arg)) := by
  refine congrArg (Program.ask _) (funext fun found => ?_)
  cases found with
  | false => rfl
  | true =>
    refine congrArg (Program.ask _) (funext fun isDirectory => ?_)
    cases isDirectory with
    | false => rfl
    | true =>
      refine congrArg (Program.ask _) (funext fun names => ?_)
      match names with
      | .error e => rfl
      | .ok (_ :: _) => rfl
      | .ok [] =>
        refine congrArg (Program.ask _) (funext fun r => ?_)
        cases r with
        | error e => rfl
        | ok _ => exact run_say _ _

theorem run_runRm (arg : Text) (dir : Path) :
    (runRm arg dir).run =
      .ask (.files (.exists (dir.resolve arg))) fun found =>
        if found then
          .ask (.files (.isDirectory (dir.resolve arg))) fun isDirectory =>
            if isDirectory then .done (.error (.isADirectory arg))
            else
              .ask (.files (.removeFile (dir.resolve arg))) fun
                | .ok () =>
                  announce ("File deleted successfully: ".toList ++ arg ++ ['\n']) (.quiet dir)
                | .error e => .done (.error (.io "Failed to delete the file".toList e))
        else .done (.error (.notFound arg)) := by
  refine congrArg (Program.ask _) (funext fun found => ?_)
  cases found with
  | false => rfl
  | true =>
    refine congrArg (Program.ask _) (funext fun isDirectory => ?_)
    cases isDirectory with
    | true => rfl
    | false =>
      refine congrArg (Program.ask _) (funext fun r => ?_)
      cases r with
      | error e => rfl
      | ok _ => exact run_say _ _

theorem run_runMv (source destination : Text) (dir : Path) :
    (runMv source destination dir).run =
      .ask (.files (.exists (dir.resolve source))) fun found =>
        if found then
          .ask (.files (.isDirectory (dir.resolve destination))) fun (isDirectory : Bool) =>
            let target := moveTarget (dir.resolve source) (dir.resolve destination) isDirectory
            .ask (.files (.move (dir.resolve source) target)) fun
              | .ok () =>
                announce ("Moved/Renamed successfully: ".toList ++ source ++ " to ".toList
                  ++ target.text ++ ['\n']) (.quiet dir)
              | .error e => .done (.error (.io "Failed to move or rename".toList e))
        else .done (.error (.sourceNotFound source)) := by
  refine congrArg (Program.ask _) (funext fun found => ?_)
  cases found with
  | false => rfl
  | true =>
    refine congrArg (Program.ask _) (funext fun isDirectory => ?_)
    refine congrArg (Program.ask _) (funext fun r => ?_)
    cases r with
    | error e => rfl
    | ok _ => exact run_say _ _

/-! ## Output -/

/-- The directory that a listing lists. -/
def Listing.place (l : Listing) (dir : Path) : Path :=
  match l.path with
  | some arg => dir.resolve arg
  | none => dir

/-- What a listing calls the directory it lists. -/
def Listing.label (l : Listing) (dir : Path) : Text := l.path.getD dir.text

theorem run_runLs (l : Listing) (dir : Path) :
    (runLs l dir).run =
      .ask (.files (.isDirectory (l.place dir))) fun isDirectory =>
        if isDirectory then
          .ask (.files (.entries (l.place dir))) fun
            | .ok names => .done (.ok ⟨0, (linesText (l.shown names)).bytes, dir⟩)
            | .error e => .done (.error (.io "Unable to list files".toList e))
        else .done (.error (.invalidDirectory (l.label dir))) := by
  obtain ⟨showHidden, reverse, path⟩ := l
  cases path <;>
  · refine congrArg (Program.ask _) (funext fun isDirectory => ?_)
    cases isDirectory with
    | false => rfl
    | true =>
      refine congrArg (Program.ask _) (funext fun names => ?_)
      cases names <;> rfl

/-- Report what is wrong with a file, and go on with what was read of it. -/
def complain (f : Failure) (text : Text) : Program (Except Failure (Text × Bool)) :=
  .ask (.print f.line.bytes) fun
    | .ok () => .done (.ok (text, true))
    | .error e => .done (.error (.console e))

theorem run_report (f : Failure) (text : Text) :
    (do report f; return (text, true) : Attempt (Text × Bool)).run = complain f text := by
  refine congrArg (Program.ask _) (funext fun r => ?_)
  cases r <;> rfl

theorem run_readOn_zero (reader : Files.Reader) (latest : List Text) :
    (readOn 0 reader latest).run = .done (.ok (linesText latest.reverse, false)) := rfl

theorem run_readOn_succ (left : Nat) (reader : Files.Reader) (latest : List Text) :
    (readOn (left + 1) reader latest).run =
      .ask (.files (.nextLine reader)) fun
        | none => .done (.ok (linesText latest.reverse, false))
        | some (.error e, _) =>
          complain (.io "Error reading file".toList e) (linesText latest.reverse)
        | some (.ok line, reader) => (readOn left reader (line :: latest)).run := by
  refine congrArg (Program.ask _) (funext fun item => ?_)
  match item with
  | none => rfl
  | some (.error e, _) => exact run_report _ _
  | some (.ok line, _) => rfl

theorem run_readFile (dir : Path) (name : Text) :
    (readFile dir name).run =
      .ask (.files (.exists (dir.resolve name))) fun found =>
        if found then
          .ask (.files (.readLines (dir.resolve name))) fun
            | .error e => complain (.io "Error reading file".toList e) []
            | .ok reader => (readOn reader.left reader []).run
        else complain (.fileNotFound name) [] := by
  refine congrArg (Program.ask _) (funext fun found => ?_)
  cases found with
  | false => exact run_report _ _
  | true =>
    refine congrArg (Program.ask _) (funext fun opened => ?_)
    cases opened with
    | error e => exact run_report _ _
    | ok reader => rfl

end Builtin

end FileShell

/-
FileShell.Proofs.Shell.NormalPaths — a session stays in normal
directories and speaks of normal paths only.

The invariant is that the session's directory is normal. All paths that a
command derives from such a directory are normal (`Derived.isNormal`), so
its calls and the directory it ends in are. A segment, a line and a run of
lines then keep the invariant in turn, each by the rule for one program
after another.

Answers are arbitrary throughout, so nothing is assumed of the file
system or of the console.
-/
import FileShell.Host.FileSystem
import FileShell.Proofs.Builtin.Requests
import FileShell.Proofs.Path.Normality
import FileShell.Proofs.Shell.Session

namespace FileShell

/-- Paths derived from a normal directory are normal. -/
theorem Path.Derived.isNormal {dir p : Path} (h : Derived dir p) (hdir : dir.IsNormal) :
    p.IsNormal := by
  have hresolve (arg : Text) : (dir.resolve arg).IsNormal :=
    isNormal_resolve hdir.isAbsolute arg
  cases h with
  | here => exact hdir
  | resolved arg => exact hresolve arg
  | above hup => exact isNormal_of_parent? hdir hup
  | inside source destination hbase =>
    exact isNormal_join (hresolve destination) (isOrdinary_of_fileName? (hresolve source) hbase)

/-- The paths that a request hands to the file system. -/
def Request.paths : Request → List Path
  | .files call => call.paths
  | _ => []

/-- Every path that the file system is handed is normal. -/
def Exchange.SpeaksNormally (e : Exchange) : Prop := ∀ p ∈ e.request.paths, p.IsNormal

theorem speaksNormally_of_paths_eq_nil {e : Exchange} (h : e.request.paths = []) :
    e.SpeaksNormally := by simp [Exchange.SpeaksNormally, h]

theorem Builtin.Asks.speaksNormally {dir : Path} {e : Exchange} (h : Asks dir e)
    (hdir : dir.IsNormal) : e.SpeaksNormally := by
  cases h with
  | call hpaths answer => exact fun p hp => (hpaths p hp).isNormal hdir
  | print content answer => exact speaksNormally_of_paths_eq_nil rfl
  | note record answer => exact speaksNormally_of_paths_eq_nil rfl

namespace Shell

open Program Builtin

variable {dir : Path}

/-! ## Segments, lines, sessions -/

theorem keeps_normal_command (h : dir.IsNormal) (n : Name) (args : List Text) :
    ((command n args).run dir).Keeps Exchange.SpeaksNormally fun out => out.directory.IsNormal :=
  ((keeps_command n args).mono fun _ he => he.speaksNormally h).imp fun _ hout => hout.isNormal h

theorem keeps_deliver (h : dir.IsNormal) (redirect : Option Redirect) (output : Bytes) :
    (deliver dir redirect output).Keeps Exchange.SpeaksNormally fun _ => True := by
  cases redirect with
  | none =>
    intro answer
    refine ⟨speaksNormally_of_paths_eq_nil rfl, ?_⟩
    cases answer <;> trivial
  | some r =>
    intro answer
    refine ⟨(asks_about rfl (.resolved r.target) _).speaksNormally h, ?_⟩
    cases answer <;> trivial

theorem keeps_runDelivering (h : dir.IsNormal) (n : Name) (args : List Text)
    (redirect : Option Redirect) :
    (runDelivering (command n args) redirect dir).Keeps Exchange.SpeaksNormally
      fun r => r.2.IsNormal := by
  rw [runDelivering, keeps_bind]
  refine (keeps_normal_command h n args).imp fun out hout => ?_
  cases hresult : out.result with
  | error f => exact hout
  | ok code =>
    refine (keeps_bind _ _ _).mpr ((keeps_deliver hout redirect out.output).imp fun r _ => ?_)
    cases r <;> exact hout

theorem keeps_runShowing (h : dir.IsNormal) (n : Name) (args : List Text) (name : Text)
    (redirect : Option Redirect) :
    (runShowing (command n args) name redirect dir).Keeps Exchange.SpeaksNormally
      fun r => r.2.IsNormal := by
  have hrun : ((command n args).run dir >>= fun out =>
      (Program.done (out.result, out.directory))).Keeps Exchange.SpeaksNormally
        fun r => r.2.IsNormal := by
    rw [keeps_bind]
    exact (keeps_normal_command h n args).imp fun out hout => hout
  cases redirect with
  | none => exact hrun
  | some r => exact fun answer => ⟨speaksNormally_of_paths_eq_nil rfl, hrun⟩

/-- One invocation keeps the session in normal directories. -/
theorem keeps_run_table (h : dir.IsNormal) (i : Invocation) :
    (run table i dir).Keeps Exchange.SpeaksNormally fun r => r.2.IsNormal := by
  unfold run
  split
  · exact h
  · next make hmake =>
    obtain ⟨n, -, rfl⟩ := exists_of_find?_table hmake
    dsimp only
    split
    · exact keeps_runDelivering h n i.args i.redirect
    · exact keeps_runShowing h n i.args i.name i.redirect

theorem keeps_settle (r : Except Failure ExitCode) :
    (settle r).Keeps Exchange.SpeaksNormally fun _ => True := by
  cases r with
  | ok code => trivial
  | error f =>
    intro answer
    refine ⟨speaksNormally_of_paths_eq_nil rfl, ?_⟩
    cases answer with
    | ok _ => trivial
    | error e => exact fun answer => ⟨speaksNormally_of_paths_eq_nil rfl, trivial⟩

theorem keeps_runEntry (h : dir.IsNormal) (entry : Except Failure Invocation) :
    (runEntry table entry dir).Keeps Exchange.SpeaksNormally fun r => r.2.IsNormal := by
  cases entry with
  | error f =>
    rw [runEntry, keeps_bind]
    exact (keeps_settle _).imp fun code _ => h
  | ok i =>
    rw [runEntry, keeps_bind]
    refine (keeps_run_table h i).imp fun r hr => ?_
    exact (keeps_bind _ _ _).mpr ((keeps_settle r.1).imp fun code _ => hr)

theorem keeps_runEntries (h : dir.IsNormal) (entries : List (Except Failure Invocation))
    (last : ExitCode) :
    (runEntries table entries last dir).Keeps Exchange.SpeaksNormally fun r => r.2.IsNormal := by
  induction entries generalizing last dir with
  | nil => exact h
  | cons entry rest ih =>
    rw [runEntries, keeps_bind]
    exact (keeps_runEntry h entry).imp fun r hr => ih hr r.1

theorem keeps_flush : flush.Keeps Exchange.SpeaksNormally fun _ => True := by
  intro answer
  refine ⟨speaksNormally_of_paths_eq_nil rfl, ?_⟩
  cases answer with
  | ok _ => trivial
  | error e => exact fun answer => ⟨speaksNormally_of_paths_eq_nil rfl, trivial⟩

theorem keeps_execute (h : dir.IsNormal) (line : Text) :
    (execute table line dir).Keeps Exchange.SpeaksNormally fun r => r.2.IsNormal := by
  rw [execute, keeps_bind]
  refine (keeps_runEntries h _ 0).imp fun r hr => ?_
  exact (keeps_bind _ _ _).mpr (keeps_flush.imp fun _ _ => hr)

theorem keeps_executeAll (h : dir.IsNormal) (lines : List Text) :
    (executeAll table lines dir).Keeps Exchange.SpeaksNormally fun d => d.IsNormal := by
  induction lines generalizing dir with
  | nil => exact h
  | cons line rest ih =>
    rw [executeAll, keeps_bind]
    exact (keeps_execute h line).imp fun r hr => ih hr

theorem keeps_executeUpTo (h : dir.IsNormal) (lines : List Text) (line : Text) (count : Nat) :
    (executeUpTo table lines line count dir).Keeps Exchange.SpeaksNormally
      fun d => d.IsNormal := by
  rw [executeUpTo, keeps_bind]
  refine (keeps_executeAll h lines).imp fun d hd => ?_
  exact (keeps_bind _ _ _).mpr ((keeps_runEntries hd _ 0).imp fun r hr => hr)

/-- A session with the eleven commands that starts in an absolute directory,
or in any directory while the process directory can be asked for, is in an
absolute, lexically normal directory after every segment of every line, and
every path it ever hands to a file system is absolute and normal. -/
theorem session_paths_normal {φ κ : Type} (w : World φ κ) {process : Option Path} {start : Path}
    (hprocess : ∀ p, process = some p → p.isAbsolute = true)
    (hstart : start.isAbsolute = true ∨ process.isSome = true)
    (lines : List Text) (line : Text) (count : Nat) (s : Scene φ κ) :
    ((executeUpTo table lines line count (Path.startIn process start)).run w s).value.IsNormal ∧
      ∀ e ∈ ((executeUpTo table lines line count (Path.startIn process start)).run w s).exchanges,
        ∀ p ∈ e.request.paths, p.IsNormal := by
  have hnormal : (Path.startIn process start).IsNormal := Path.isNormal_startIn hprocess hstart
  exact (keeps_run w (keeps_executeUpTo hnormal lines line count) s).symm

/-- From a relative directory, in the middle of a line that leaves it. -/
theorem session_paths_normal_from_relative :
    let start := Path.startIn (some ⟨['/', 's', 'r', 'v']⟩) ⟨['a', '/', '.', '.', '/', '/', 'b']⟩
    let program := executeUpTo table ["mv x ..".toList] "cd .. | pwd".toList 1 start
    let machine : Host := ⟨.directory 0 [], .inTree []⟩
    (program.run (Host.world Host.fileSystem Console.screen) ⟨machine, {}⟩).value.IsNormal ∧
      ∀ e ∈ (program.run (Host.world Host.fileSystem Console.screen) ⟨machine, {}⟩).exchanges,
        ∀ p ∈ e.request.paths, p.IsNormal := by
  refine session_paths_normal _ (fun p hp => ?_) (.inr rfl) _ _ _ _
  cases hp
  rfl

end Shell

end FileShell

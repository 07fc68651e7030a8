/-
FileShell.Proofs.Shell.Composition — what lines inherit from commands.

A shell puts programs together: it runs a command, delivers what came of
it, shows a failure, goes on with the next segment. So a property that one
program after another has if both have it holds of whatever a shell runs,
once it holds of the commands in its table.

`Program.Compositional` is what is asked of the property. It need not hold
of a flush, the one request that a shell makes only at the end of a line
(`execute` asks for that separately). The eleven commands never flush, so
they have every such property (`Builtin.all_table`), and registering more
commands that have it keeps the table so.
-/
import FileShell.Proofs.Builtin.Requests
import FileShell.Proofs.Program.Keeps
import FileShell.Proofs.Shell.Session
import FileShell.Shell

namespace FileShell

/-- A property of programs that is made up from the parts of a program. -/
structure Program.Compositional (P : ∀ {α : Type}, Program α → Prop) : Prop where
  done {α : Type} (a : α) : P (Program.done a)
  bind {α β : Type} {p : Program α} {f : α → Program β} :
    P p → (∀ a, P (f a)) → P (p >>= f)
  request {r : Request} : r ≠ .flush → P (Program.request r)

/-- Every command of a table has a property. -/
def CommandTable.All (P : ∀ {α : Type}, Program α → Prop) (table : CommandTable) : Prop :=
  ∀ name make, table.find? name = some make → ∀ args dir, P ((make args).run dir)

theorem CommandTable.All.register {P : ∀ {α : Type}, Program α → Prop} {table : CommandTable}
    (h : table.All @P) (name : Text) {make : List Text → Command}
    (hmake : ∀ args dir, P ((make args).run dir)) : (table.register name make).All @P := by
  intro other make' hfind
  by_cases hname : other = name
  · subst hname
    rw [find?_register_self] at hfind
    exact Option.some.inj hfind ▸ hmake
  · rw [find?_register_of_ne table make hname] at hfind
    exact h other make' hfind

namespace Program.Compositional

variable {P : ∀ {α : Type}, Program α → Prop} (hP : Compositional @P)
include hP

/-- A program that never flushes has the property. -/
theorem of_keeps {α : Type} {p : Program α} {last : α → Prop}
    (h : p.Keeps (fun e => e.request ≠ .flush) last) : P p := by
  induction p with
  | done a => exact hP.done a
  | ask r next ih =>
    refine hP.bind (hP.request ?_) fun answer => ih answer (h answer).2
    rintro rfl
    exact (h (.ok ())).1 rfl

theorem deliver (dir : Path) (redirect : Option Redirect) (output : Bytes) :
    P (Shell.deliver dir redirect output) := by
  cases redirect <;>
  · refine hP.bind (hP.request nofun) fun answer => ?_
    cases answer <;> exact hP.done _

theorem settle (r : Except Failure ExitCode) : P (Shell.settle r) := by
  cases r with
  | ok code => exact hP.done code
  | error f =>
    refine hP.bind (hP.bind (hP.request nofun) fun answer => ?_) fun _ => hP.done 1
    cases answer with
    | ok _ => exact hP.done ()
    | error e => exact hP.request nofun

variable {table : CommandTable} (htable : table.All @P)
include htable

theorem run (i : Invocation) (dir : Path) : P (Shell.run table i dir) := by
  unfold Shell.run
  split
  · exact hP.done _
  · next make hmake =>
    have hcommand : P ((make i.args).run dir) := htable i.name make hmake i.args dir
    dsimp only
    split
    · refine hP.bind hcommand fun out => ?_
      cases out.result with
      | error f => exact hP.done _
      | ok code =>
        refine hP.bind (hP.deliver _ _ _) fun r => ?_
        cases r <;> exact hP.done _
    · have hshow := hP.bind hcommand fun out => hP.done (out.result, out.directory)
      unfold Shell.runShowing
      cases i.redirect with
      | none => exact hshow
      | some r => exact hP.bind (hP.request nofun) fun _ => hshow

theorem runEntry (entry : Except Failure Invocation) (dir : Path) :
    P (Shell.runEntry table entry dir) := by
  cases entry with
  | error f => exact hP.bind (hP.settle _) fun _ => hP.done _
  | ok i =>
    exact hP.bind (hP.run htable i dir) fun r => hP.bind (hP.settle r.1) fun _ => hP.done _

theorem runEntries (entries : List (Except Failure Invocation)) (last : ExitCode) (dir : Path) :
    P (Shell.runEntries table entries last dir) := by
  induction entries generalizing last dir with
  | nil => exact hP.done _
  | cons entry rest ih => exact hP.bind (hP.runEntry htable entry dir) fun r => ih r.1 r.2

variable (hflush : P Shell.flush)
include hflush

theorem execute (line : Text) (dir : Path) : P (Shell.execute table line dir) :=
  hP.bind (hP.runEntries htable _ _ dir) fun _ => hP.bind hflush fun _ => hP.done _

theorem executeAll (lines : List Text) (dir : Path) : P (Shell.executeAll table lines dir) := by
  induction lines generalizing dir with
  | nil => exact hP.done dir
  | cons line rest ih => exact hP.bind (hP.execute htable hflush line dir) fun r => ih r.2

end Program.Compositional

/-- The eleven commands never flush. -/
theorem Builtin.all_table {P : ∀ {α : Type}, Program α → Prop} (hP : Program.Compositional @P) :
    table.All @P := by
  intro name make hfind args dir
  obtain ⟨n, -, rfl⟩ := exists_of_find?_table hfind
  refine hP.of_keeps ((keeps_command n args).mono fun e he => ?_)
  cases he <;> simp

end FileShell

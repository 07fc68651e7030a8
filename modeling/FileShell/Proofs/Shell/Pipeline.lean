/-
FileShell.Proofs.Shell.Pipeline — a bar between two lines is the one line
after the other.

Running segments is a homomorphism from rows of segments to programs in
sequence (`runEntries_append`), so a line with a bar in it differs from its
two halves run as lines in one thing only: the halves flush the console in
between. That flush leaves the state as it is, as far as any view of the
console goes (`state_flush`), and commands that transform states cannot
tell that it was there.

A table of such commands may be any (`CommandTable.All`): the eleven
commands are among them whatever the view, and every command is where the
view tells what a flush answers. What a command may not do is go by
something that is no part of the state, as a `sync` does whose code says
whether this very flush went well (`sync_after_bar`).
-/
import FileShell.Proofs.Line.Segments
import FileShell.Proofs.Program.Flushing
import FileShell.Proofs.Shell.Composition
import FileShell.Shell
import FileShell.Host.FileSystem

namespace FileShell

variable {φ κ σ : Type}

namespace Shell

open Program

variable {table : CommandTable}

/-! ## Segments in a row -/

/-- Segments run one after another run as two rows, one after the other. -/
theorem runEntries_append (table : CommandTable) (xs ys : List (Except Failure Invocation))
    (last : ExitCode) (dir : Path) :
    runEntries table (xs ++ ys) last dir =
      runEntries table xs last dir >>= fun r => runEntries table ys r.1 r.2 := by
  induction xs generalizing last dir with
  | nil => rfl
  | cons x xs ih =>
    rw [List.cons_append, runEntries, runEntries, bind_assoc]
    exact congrArg (runEntry table x dir >>= ·) (funext fun r => ih r.1 r.2)

/-- The code so far is only what a row without segments answers. -/
theorem runEntries_last (table : CommandTable) (entries : List (Except Failure Invocation))
    (last : ExitCode) (dir : Path) :
    runEntries table entries last dir =
      runEntries table entries 0 dir >>= fun r =>
        Program.done (if entries = [] then last else r.1, r.2) := by
  cases entries with
  | nil => rfl
  | cons entry rest =>
    simp only [List.cons_ne_nil, if_false]
    exact (bind_done _).symm

/-! ## The flush after a line -/

theorem flush_eq :
    flush = .ask .flush fun
      | .ok () => .done ()
      | .error e => .ask (.note (.flushFailed e)) .done := by
  refine congrArg (Program.ask _) (funext fun r => ?_)
  cases r <;> rfl

variable (w : World φ κ)

theorem scene_flush (s : Scene φ κ) :
    (flush.run w s).scene = { s with console := (w.console.flush s.console).2 } := by
  rw [flush_eq, run_ask]
  simp only [World.answer]
  cases (w.console.flush s.console).1 <;> rfl

theorem shown_flush (s : Scene φ κ) : flush.shown w s = [] := by
  rw [flush_eq, shown_ask]
  simp only [World.answer]
  cases (w.console.flush s.console).1 <;> rfl

/-- The flush after a line leaves the state as it is. -/
theorem state_flush (view : w.console.View σ) (s : Scene φ κ) :
    view.state (flush.run w s).scene = view.state s := by
  rw [scene_flush]
  exact Prod.ext rfl (view.flush s.console)

/-- A line is its segments in a row, and a flush. -/
theorem execute_eq (table : CommandTable) (line : Text) (dir : Path) :
    execute table line dir =
      runEntries table (Line.invocations line) 0 dir >>= fun r =>
        flush >>= fun _ => Program.done r := rfl

theorem value_execute (table : CommandTable) (line : Text) (dir : Path) (s : Scene φ κ) :
    ((execute table line dir).run w s).value =
      ((runEntries table (Line.invocations line) 0 dir).run w s).value := by
  simp [execute_eq]

theorem scene_execute (table : CommandTable) (line : Text) (dir : Path) (s : Scene φ κ) :
    ((execute table line dir).run w s).scene =
      (flush.run w ((runEntries table (Line.invocations line) 0 dir).run w s).scene).scene := by
  simp [execute_eq]

theorem shown_execute (table : CommandTable) (line : Text) (dir : Path) (s : Scene φ κ) :
    (execute table line dir).shown w s =
      (runEntries table (Line.invocations line) 0 dir).shown w s := by
  simp [execute_eq, shown_flush]

/-! ## A bar in a line -/

/-- Two rows of segments with a flush in between, or without one. -/
theorem runEntries_flush_between (view : w.console.View σ)
    (htable : table.All fun p => p.Transforms w view) (xs ys : List (Except Failure Invocation))
    (dir : Path) (s : Scene φ κ) :
    let first := (runEntries table xs 0 dir).run w s
    let second := (runEntries table ys 0 first.value.2).run w (flush.run w first.scene).scene
    let whole := (runEntries table (xs ++ ys) 0 dir).run w s
    whole.value = (if ys = [] then first.value.1 else second.value.1, second.value.2) ∧
      view.state whole.scene = view.state second.scene ∧
      (runEntries table (xs ++ ys) 0 dir).shown w s =
        (runEntries table xs 0 dir).shown w s ++
          (runEntries table ys 0 first.value.2).shown w (flush.run w first.scene).scene := by
  intro first second whole
  have heffect : (runEntries table ys 0 first.value.2).effect w view first.scene =
      (runEntries table ys 0 first.value.2).effect w view (flush.run w first.scene).scene :=
    (compositional_transforms w view).runEntries htable ys 0 first.value.2
      (state_flush w view first.scene).symm
  obtain ⟨hvalue, hrest⟩ := Prod.mk.inj heffect
  obtain ⟨hshown, hstate⟩ := Prod.mk.inj hrest
  have hprogram : runEntries table (xs ++ ys) 0 dir =
      runEntries table xs 0 dir >>= fun r =>
        runEntries table ys 0 r.2 >>= fun r' =>
          Program.done (if ys = [] then r.1 else r'.1, r'.2) := by
    rw [runEntries_append]
    exact congrArg _ (funext fun r => runEntries_last table ys r.1 r.2)
  refine ⟨?_, ?_, ?_⟩
  · simp only [whole, hprogram, run_bind_value, run_done]
    rw [hvalue]
  · simpa only [whole, hprogram, run_bind_scene, run_done] using hstate
  · simp only [hprogram, shown_bind, shown_done, List.append_nil]
    exact congrArg (_ ++ ·) hshown

/-- The same command on a console that flushes well the first time only.
A flush does not change which bytes are accepted, but the code goes by
something that is in no view of the console, and there the line with the
bar and the two lines are told apart. -/
theorem sync_after_bar :
    let sync : List Text → Command := fun _ =>
      ⟨false, fun dir => .ask .flush fun
        | .ok () => .done ⟨.ok 0, [], dir⟩
        | .error _ => .done ⟨.ok 7, [], dir⟩⟩
    let table := Builtin.table.register ['s'] sync
    let con : Console Bool :=
      ⟨fun _ flushed => (.ok (), flushed),
        fun flushed => (if flushed then .error Console.full else .ok (), true)⟩
    let w := Host.world Host.fileSystem con
    let scene : Scene Host Bool := ⟨⟨.directory 0 [], .inTree []⟩, false⟩
    let first := (execute table [] Path.root).run w scene
    con.FlushNeutral ∧
      (∀ σ (view : con.View σ), ¬ ((sync []).run Path.root).Transforms w view) ∧
      ((execute table ([] ++ '|' :: ['s']) Path.root).run w scene).value.1 = 0 ∧
      ((execute table ['s'] first.value.2).run w first.scene).value.1 = 7 := by
  intro sync table con w scene first
  refine ⟨?_, fun σ view h => ?_, ?_, ?_⟩
  · exact Console.flushNeutral_iff_exists_view.mpr
      ⟨Unit, ⟨⟨fun _ => (), fun _ _ _ _ => ⟨rfl, rfl⟩, fun _ => rfl⟩⟩⟩
  · have hstate : view.state ⟨scene.files, true⟩ = view.state scene :=
      Prod.ext rfl (view.flush false)
    have hcode : some (7 : ExitCode) = some 0 :=
      congrArg (fun effect => effect.1.result.toOption) (h hstate)
    exact absurd hcode (by decide)
  · rfl
  · rfl

end Shell

end FileShell

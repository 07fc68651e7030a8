/-
FileShell.Proofs.Shell.Routing — where a command's two outputs go.

A command writes to the console while it runs and leaves an output when it
has ended. Nothing is assumed of the command here: it is any program, with
any outcome, under any name of any table.

* A command without redirectable output runs as it is, behind a remark on
  the redirection it ignores (`run_showing`).
* A command with redirectable output runs as it is too, and is followed by
  `finish`. If it has failed, that is nothing (`finish_failed`); if it has
  succeeded, it is one request with the whole output, to the console
  (`finish_printing`) or to the target as seen from the directory the
  command has left (`finish_writing`).

That an output goes nowhere is said by changing it: `Command.withOutput` is
the same command with another output, and its run is the same run.
-/
import FileShell.Proofs.Program.Printing
import FileShell.Proofs.Shell.Dispatch
import FileShell.Host.FileSystem

namespace FileShell

variable {φ κ : Type}

/-- A command that writes something else where it would write its output. -/
def Command.withOutput (c : Command) (g : Bytes → Bytes) : Command where
  redirectable := c.redirectable
  run dir := (fun out : Outcome => { out with output := g out.output }) <$> c.run dir

namespace Shell

open Program

section

variable (w : World φ κ) (c : Command) (name : Text) (redirect : Option Redirect) (dir : Path)
  (s : Scene φ κ)

/-! ## Commands without redirectable output -/

/-- The command's own run, behind the remark. -/
theorem run_showing :
    let own := (c.run dir).run w s
    (runShowing c name redirect dir).run w s =
      ⟨(own.value.result, own.value.directory), own.scene,
        remarks ⟨name, [], redirect⟩ ++ own.exchanges⟩ := by
  intro own
  unfold runShowing
  cases redirect with
  | none => simp [run_bind, own, remarks]
  | some r =>
    simp only [Program.note, Program.request, ask_bind, run_ask, done_bind, run_bind, run_done,
      pure_eq_done, List.append_nil]
    rfl

/-- The remark is not shown. -/
theorem shown_showing :
    (runShowing c name redirect dir).shown w s = (c.run dir).shown w s := by
  unfold runShowing
  cases redirect with
  | none => simp
  | some r =>
    simp only [Program.note, Program.request, ask_bind, shown_ask, done_bind, shown_bind,
      shown_done, pure_eq_done, List.append_nil]
    rfl

end

/-- A built-in command without output runs as it is, behind the remark. -/
theorem run_of_not_redirectable (w : World φ κ) {n : Builtin.Name} (hn : n.redirectable = false)
    (args : List Text) (redirect : Option Redirect) (dir : Path) (s : Scene φ κ) :
    let i : Invocation := ⟨n.text, args, redirect⟩
    let own := ((Builtin.command n args).run dir).run w s
    (run Builtin.table i dir).run w s =
      ⟨(own.value.result, own.value.directory), own.scene, remarks i ++ own.exchanges⟩ := by
  intro i own
  rw [run_eq_showing hn, run_showing]
  rfl

/-! ## Any command -/

/-- Output that is not delivered could be any other. -/
theorem run_withOutput (w : World φ κ) {c : Command} {redirect : Option Redirect} {dir : Path}
    {s : Scene φ κ}
    (hquiet : c.redirectable = false ∨ ∃ f, ((c.run dir).run w s).value.result = .error f)
    (name : Text) (g : Bytes → Bytes) :
    let via (c : Command) :=
      if c.redirectable then runDelivering c redirect dir else runShowing c name redirect dir
    (via (c.withOutput g)).run w s = (via c).run w s := by
  intro via
  have hsame : (c.withOutput g).redirectable = c.redirectable := rfl
  cases hc : c.redirectable with
  | false =>
    simp only [via, hsame, hc, Bool.false_eq_true, if_false, run_showing]
    simp only [Command.withOutput, run_map]
  | true =>
    obtain ⟨f, hf⟩ := hquiet.resolve_left (by simp [hc])
    simp only [via, hsame, hc, if_true, delivering_eq_bind, run_bind]
    simp only [Command.withOutput, run_map]
    generalize ((c.run dir).run w s).value = out at hf
    have hplain : finish redirect out = .done (.error f, out.directory) := finish_failed hf redirect
    have hchanged : finish redirect { out with output := g out.output } =
        .done (.error f, out.directory) := finish_failed (by exact hf) redirect
    rw [hchanged, hplain]

/-- Where the output of a command goes, whatever the command does, in any
world and with any redirection.

A command without redirectable output ends as it does by itself, shows what
it shows by itself, and asks for nothing more; only a remark on the
redirection differs. A command with redirectable output that fails has made
the whole run by itself. One that succeeds is followed by one request, with
its whole output: a print, or a write to the target as seen from the
directory it has left; its code stays, unless that request is refused,
which is then the failure. Where nothing is delivered, the output might
have been any other. -/
theorem run_routes {table : CommandTable} {name : Text} {make : List Text → Command}
    (hfind : table.find? name = some make) (w : World φ κ) (args : List Text) (dir : Path)
    (s : Scene φ κ) :
    let c := make args
    let own := (c.run dir).run w s
    let out := own.value
    let invoked redirect := run table ⟨name, args, redirect⟩ dir
    (c.redirectable = false → ∀ redirect,
      (invoked redirect).run w s =
        ⟨(out.result, out.directory), own.scene,
          remarks ⟨name, args, redirect⟩ ++ own.exchanges⟩ ∧
      (invoked redirect).shown w s = (c.run dir).shown w s ∧
      ((invoked redirect).run w s).exchanges.filter Exchange.isCall =
        own.exchanges.filter Exchange.isCall) ∧
    (c.redirectable = true → ∀ f, out.result = .error f → ∀ redirect,
      (invoked redirect).run w s = ⟨(.error f, out.directory), own.scene, own.exchanges⟩ ∧
      (invoked redirect).shown w s = (c.run dir).shown w s) ∧
    (c.redirectable = true → ∀ code, out.result = .ok code →
      (let print := w.console.write out.output own.scene.console
       (invoked none).run w s =
          ⟨(printed code print.1, out.directory), { own.scene with console := print.2 },
            own.exchanges ++ [⟨.print out.output, print.1⟩]⟩ ∧
       (invoked none).shown w s =
          (c.run dir).shown w s ++ w.console.accepted out.output own.scene.console) ∧
      ∀ target : Redirect,
        let path := out.directory.resolve target.target
        let write := w.files.answer (.write path target.mode out.output) own.scene.files
        (invoked (some target)).run w s =
          ⟨(written code write.1, out.directory), { own.scene with files := write.2 },
            own.exchanges ++ [⟨.files (.write path target.mode out.output), write.1⟩]⟩ ∧
        (invoked (some target)).shown w s = (c.run dir).shown w s) ∧
    (c.redirectable = false ∨ (∃ f, out.result = .error f) → ∀ (g : Bytes → Bytes) redirect,
      let other := table.register name fun args => (make args).withOutput g
      (run other ⟨name, args, redirect⟩ dir).run w s = (invoked redirect).run w s) := by
  intro c own out invoked
  have hinvoked redirect : invoked redirect =
      if c.redirectable then runDelivering c redirect dir else runShowing c name redirect dir := by
    simp only [invoked, run, hfind]
    rfl
  refine ⟨fun hc redirect => ?_, fun hc f hf redirect => ?_, fun hc code hok => ⟨?_, ?_⟩,
    fun hquiet g redirect => ?_⟩
  · rw [hinvoked, hc, if_neg (by simp), run_showing, shown_showing]
    refine ⟨rfl, rfl, ?_⟩
    cases redirect <;> rfl
  · rw [hinvoked, hc, if_pos rfl, delivering_eq_bind, run_bind, shown_bind, finish_failed hf]
    simp [own]
  · rw [hinvoked, hc, if_pos rfl, delivering_eq_bind, run_bind, shown_bind, finish_printing hok,
      shown_ask, shown_done, List.append_nil]
    exact ⟨rfl, rfl⟩
  · intro target path write
    rw [hinvoked, hc, if_pos rfl, delivering_eq_bind, run_bind, shown_bind,
      finish_writing hok target, shown_ask, shown_done, List.append_nil]
    exact ⟨rfl, List.append_nil _⟩
  · intro other
    have hother : run other ⟨name, args, redirect⟩ dir =
        if (c.withOutput g).redirectable then runDelivering (c.withOutput g) redirect dir
        else runShowing (c.withOutput g) name redirect dir := by
      simp only [run, other, CommandTable.find?_register_self]
      rfl
    rw [hother, hinvoked]
    exact run_withOutput w hquiet name g

/-- A command that says something, goes to another directory and ends with
the code 3: its output is in a file of that directory. -/
theorem run_routes_from_new_directory :
    let speak : List Text → Command := fun _ =>
      ⟨true, fun _ => .ask (.print [33]) fun _ => .done ⟨.ok 3, [72, 69, 89], ⟨['/', 'd']⟩⟩⟩
    let table := Builtin.table.register ['s'] speak
    let w := Host.world Host.fileSystem Console.screen
    let s : Scene Host Console.Screen :=
      ⟨⟨.directory 0 [(['d'], .directory 0 [])], .inTree []⟩, {}⟩
    let p := run table ⟨['s'], [], some ⟨.overwrite, ['f']⟩⟩ Path.root
    (p.run w s).value = (.ok 3, ⟨['/', 'd']⟩) ∧ p.shown w s = [33] ∧
      (p.run w s).scene.files.readAll ⟨"/d/f".toList⟩ = .ok [72, 69, 89] := by
  intro speak table w s p
  obtain ⟨_, _, hok, _⟩ :=
    run_routes (Builtin.table.find?_register_self ['s'] speak) w [] Path.root s
  obtain ⟨_, hwrites⟩ := hok rfl 3 rfl
  obtain ⟨hrun, hshown⟩ := hwrites ⟨.overwrite, ['f']⟩
  have hrun' : p.run w s = _ := hrun
  have hshown' : p.shown w s = _ := hshown
  rw [hrun', hshown']
  exact ⟨rfl, rfl, rfl⟩

end Shell

end FileShell

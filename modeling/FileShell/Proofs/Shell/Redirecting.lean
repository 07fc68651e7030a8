/-
FileShell.Proofs.Shell.Redirecting — a redirection diverts the output and
nothing else.

`echo`, `ls` and `cat` are run first and delivered afterwards, so a run
with a redirection and one without it share the whole run of the command
(`run_eq_bind`). That run asks questions and prints reports only: the
files are at its end what they were at its start
(`files_run_command`), and so the output is computed before the target is
opened, also where the target is one of the files that are read or lies in
the directory that is listed.

What is left is the delivery. Without a redirection it is one last print;
with one it is one write, which `Host.write_file` tells. A command that
fails delivers nothing, and its target is not touched.
-/
import FileShell.Proofs.Host.Writing
import FileShell.Proofs.Program.Printing
import FileShell.Proofs.Shell.Dispatch
import FileShell.Host.FileSystem

namespace FileShell

variable {φ κ : Type}

/-! ## Runs that only read -/

/-- A file system that is not changed by questions. -/
def FileSystem.QuestionsPass (files : FileSystem φ) : Prop :=
  ∀ c : Files.Call, c.isQuestion = true → ∀ s, (files.answer c s).2 = s

theorem Host.questionsPass_fileSystem : Host.fileSystem.QuestionsPass := by
  intro c hc h
  cases c <;> first | rfl | cases hc

namespace Builtin

open Program

variable {dir : Path} {α : Type}

theorem files_run_of_reads (w : World φ κ) (hfiles : w.files.QuestionsPass) {p : Program α}
    {last : α → Prop} (hp : p.Keeps (Reads dir) last) (s : Scene φ κ) :
    (p.run w s).scene.files = s.files := by
  induction p generalizing s with
  | done a => rfl
  | ask r next ih =>
    rw [run_ask, ih _ (hp _).2]
    cases (hp (w.answer r s).1).1 with
    | question hc _ _ => exact hfiles _ hc _
    | report f _ => rfl

/-- The prints of a run that only reads are reports. -/
theorem exists_reports {es : List Exchange} (h : ∀ e ∈ es, Reads dir e) :
    ∃ reports : List Failure, prints es = reports.map (·.line.bytes) := by
  induction es with
  | nil => exact ⟨[], rfl⟩
  | cons e rest ih =>
    obtain ⟨he, hrest⟩ := List.forall_mem_cons.mp h
    obtain ⟨reports, hreports⟩ := ih hrest
    cases he with
    | question _ _ _ => exact ⟨reports, hreports⟩
    | report f _ => exact ⟨f :: reports, congrArg (f.line.bytes :: ·) hreports⟩

end Builtin

namespace Shell

open Program Builtin

/-! ## The run and the delivery -/

section

variable (w : World φ κ) {code : ExitCode} {out : Outcome} {s : Scene φ κ}

/-- Output that goes to a console which takes it is one print. -/
theorem finish_console (hout : out.result = .ok code) (hcon : w.console.TakesAll s.console) :
    ((finish none out).run w s).value = (.ok code, out.directory) ∧
      prints ((finish none out).run w s).exchanges = [out.output] := by
  obtain ⟨hok, _, _⟩ := hcon.write out.output
  have hanswer : (w.answer (.print out.output) s).1 = .ok () := hok
  rw [finish_printing hout, run_ask, hanswer]
  exact ⟨rfl, rfl⟩

/-- Output that goes to a file which takes it is one write. -/
theorem finish_file (hout : out.result = .ok code) {r : Redirect} {files : φ}
    (hwrite : w.files.answer (.write (out.directory.resolve r.target) r.mode out.output) s.files =
      (.ok (), files)) :
    ((finish (some r) out).run w s).value = (.ok code, out.directory) ∧
      ((finish (some r) out).run w s).scene = { s with files } ∧
      prints ((finish (some r) out).run w s).exchanges = [] := by
  have hanswer : w.answer (.files (.write (out.directory.resolve r.target) r.mode out.output)) s =
      (.ok (), { s with files }) := by rw [World.answer, hwrite]
  rw [finish_writing hout, run_ask, hanswer]
  exact ⟨rfl, rfl, rfl⟩

end

section

variable (w : World φ κ) {s : Scene φ κ} {n : Builtin.Name} (hn : n.redirectable = true)
  (args : List Text) (dir : Path) {code : ExitCode}
include hn

/-- A command that fails leaves nothing to deliver. -/
theorem run_of_error {f : Failure}
    (hout : (((command n args).run dir).run w s).value.result = .error f)
    (redirect : Option Redirect) :
    (run Builtin.table ⟨n.text, args, redirect⟩ dir).run w s =
      ⟨(.error f, (((command n args).run dir).run w s).value.directory),
       (((command n args).run dir).run w s).scene,
       (((command n args).run dir).run w s).exchanges⟩ := by
  rw [run_eq_bind hn, run_bind, finish_failed hout]
  simp

theorem run_to_console (hcon : w.console.TakesAll s.console)
    (hout : (((command n args).run dir).run w s).value.result = .ok code) :
    let out := ((command n args).run dir).run w s
    let whole := (run Builtin.table ⟨n.text, args, none⟩ dir).run w s
    whole.value = (.ok code, out.value.directory) ∧
      prints whole.exchanges = prints out.exchanges ++ [out.value.output] := by
  intro out whole
  obtain ⟨_, hcon'⟩ := shown_eq_flatten w ((command n args).run dir) hcon
  obtain ⟨hvalue, hprints⟩ := finish_console w hout hcon'
  simp only [whole, run_eq_bind hn, run_bind, prints_append]
  exact ⟨hvalue, congrArg (prints out.exchanges ++ ·) hprints⟩

theorem run_to_file (hout : (((command n args).run dir).run w s).value.result = .ok code)
    {r : Redirect} {files : φ} :
    let out := ((command n args).run dir).run w s
    let whole := (run Builtin.table ⟨n.text, args, some r⟩ dir).run w s
    w.files.answer (.write (out.value.directory.resolve r.target) r.mode out.value.output)
        out.scene.files = (.ok (), files) →
      whole.value = (.ok code, out.value.directory) ∧ whole.scene.files = files ∧
        prints whole.exchanges = prints out.exchanges := by
  intro out whole hwrite
  obtain ⟨hvalue, hscene, hprints⟩ := finish_file w hout hwrite
  simp only [whole, run_eq_bind hn, run_bind, prints_append]
  refine ⟨hvalue, congrArg Scene.files hscene, ?_⟩
  rw [hprints, List.append_nil]

end

/-! ## The same command with and without a redirection -/

/-- `echo`, `ls` or `cat` with any arguments, run with a redirection and
without one from the same state, on a console that never fails.

If the run without one succeeds, it prints reports and then the output.
Where the target is nothing or a file and takes a write of that output, the
run with one succeeds with the same code, prints the same reports only, and
leaves the output in the file that the target leads to, behind the old
content if that was to be kept; no other entry changes. If the run without
one fails, the other is the same run, and nothing is written anywhere. -/
theorem run_redirected {con : Console κ} {s : Scene Host κ} (hcon : con.TakesAll s.console)
    {n : Builtin.Name} (hn : n.redirectable = true) (args : List Text) (mode : WriteMode)
    (target : Text) (dir : Path) :
    let w := Host.world Host.fileSystem con
    let p := dir.resolve target
    let plain := run Builtin.table ⟨n.text, args, none⟩ dir
    let diverted := run Builtin.table ⟨n.text, args, some ⟨mode, target⟩⟩ dir
    let files := (diverted.run w s).scene.files
    (∀ code, (plain.run w s).value.1 = .ok code →
      ∃ (reports : List Failure) (output : Bytes),
        (plain.run w s).value = (.ok code, dir) ∧
        prints (plain.run w s).exchanges = reports.map (·.line.bytes) ++ [output] ∧
        plain.shown w s = reports.flatMap (·.line.bytes) ++ output ∧
        ((s.files.write p mode output).1 = .ok () →
          s.files.exists? p = false ∨ s.files.isFile p = true →
          (diverted.run w s).value = (.ok code, dir) ∧
          prints (diverted.run w s).exchanges = reports.map (·.line.bytes) ∧
          diverted.shown w s = reports.flatMap (·.line.bytes) ∧
          files.readAll p = .ok (mode.kept (s.files.held p) ++ output) ∧
          ∃ place, files.Reaches p place ∧
            s.files.ChangedAt files place (.file (mode.kept (s.files.held p) ++ output)))) ∧
    (∀ f, (plain.run w s).value.1 = .error f →
      diverted.run w s = plain.run w s ∧ diverted.shown w s = plain.shown w s ∧
      files = s.files ∧
      ∀ e ∈ (diverted.run w s).exchanges, ∀ p mode content,
        e.request ≠ .files (.write p mode content)) := by
  intro w p plain diverted files
  have hkeeps : ((command n args).run dir).Keeps (Reads dir) _ := keeps_command_reads hn args
  obtain ⟨hreads, hdir⟩ := keeps_run w hkeeps s
  have hfiles : (((command n args).run dir).run w s).scene.files = s.files :=
    files_run_of_reads w Host.questionsPass_fileSystem hkeeps s
  obtain ⟨reports, hreports⟩ := exists_reports hreads
  cases hout : (((command n args).run dir).run w s).value.result with
  | error f =>
    have hplain : plain.run w s = _ := run_of_error w hn args dir hout none
    have hsame : diverted.run w s = plain.run w s :=
      (run_of_error w hn args dir hout _).trans hplain.symm
    refine ⟨fun code hcode => ?_, fun f' _ => ⟨hsame, ?_, ?_, ?_⟩⟩
    · rw [hplain] at hcode
      cases hcode
    · rw [(shown_eq_flatten w diverted hcon).1, (shown_eq_flatten w plain hcon).1, hsame]
    · simp only [files, hsame, hplain, hfiles]
    · rw [hsame, hplain]
      intro e he p mode content hwrite
      cases hreads e he with
      | question hc _ _ =>
        cases hwrite
        cases hc
      | report f _ => cases hwrite
  | ok code =>
    obtain ⟨hvalue, hprints⟩ := run_to_console w hn args dir hcon hout
    refine ⟨fun code' hcode => ?_, fun f hf => ?_⟩
    · obtain rfl : code = code' := by
        rw [hvalue] at hcode
        exact Except.ok.inj hcode
      refine ⟨reports, (((command n args).run dir).run w s).value.output, ?_, ?_, ?_,
        fun hwrite htarget => ?_⟩
      · rw [hvalue, hdir]
      · rw [hprints, hreports]
      · rw [(shown_eq_flatten w plain hcon).1, hprints, hreports, List.flatten_append,
          List.flatMap_def, List.flatten_singleton]
      · obtain ⟨hvalue', hfiles', hprints'⟩ := run_to_file w hn args dir hout
          (r := ⟨mode, target⟩) (by rw [hdir, hfiles]; exact Prod.ext hwrite rfl)
        have hw : s.files.write p mode _ = (.ok (), files) := Prod.ext hwrite hfiles'.symm
        obtain ⟨place, hplace, hchanged⟩ := Host.write_file hw htarget
        refine ⟨by rw [hvalue', hdir], by rw [hprints', hreports], ?_,
          hplace.readAll_file hchanged.here, place, hplace, hchanged⟩
        rw [(shown_eq_flatten w diverted hcon).1, hprints', hreports, List.flatMap_def]
    · rw [hvalue] at hf
      cases hf

/-- A file that is added to itself is there twice, and no more often. -/
theorem run_redirected_cat_onto_itself :
    let w := Host.world Host.fileSystem Console.screen
    let scene : Scene Host Console.Screen :=
      ⟨⟨.directory 0 [(['a'], .file [120, 10])], .inTree []⟩, {}⟩
    let p := run Builtin.table ⟨Builtin.Name.cat.text, [['a']], some ⟨.append, ['a']⟩⟩ Path.root
    (p.run w scene).value = (.ok 0, Path.root) ∧
      (p.run w scene).scene.files.readAll (Path.root.resolve ['a']) =
        .ok [120, 10, 120, 10] := by
  have hcon : Console.screen.TakesAll ({} : Console.Screen) := Console.takesAll_screen rfl
  obtain ⟨hok, _⟩ := run_redirected
    (s := ⟨⟨.directory 0 [(['a'], .file [120, 10])], .inTree []⟩, ({} : Console.Screen)⟩)
    hcon (n := .cat) rfl [['a']] .append ['a'] Path.root
  obtain ⟨reports, output, _, hprints, _, hdiverted⟩ := hok 0 (by rw [run_eq_bind rfl]; rfl)
  obtain rfl : [120, 10] = output := by
    rw [run_eq_bind rfl] at hprints
    have hlast := congrArg List.getLast? hprints
    rw [List.getLast?_concat] at hlast
    exact Option.some.inj hlast
  obtain ⟨hvalue, _, _, hread, _⟩ := hdiverted rfl (.inr rfl)
  exact ⟨hvalue, hread⟩

end Shell

end FileShell

/-
FileShell.Proofs.Shell.Dispatch — how one invocation goes.

An invocation is run and then, if its command has output, delivered
(`finish`). A command that has none is run after a remark on the
redirection it ignores (`remarks`).

`Course` is what that comes to for the eleven commands where orders to the
file system are concerned. An invocation gives none, or it goes the way of
a command that changes the files, or it delivers its output to a file.
`course_of_runs` is the one place where the dispatcher is taken apart for
this; what an invocation may order and what it leaves when it fails are
read off the three cases.
-/
import FileShell.Proofs.Builtin.Orders
import FileShell.Shell

namespace FileShell

namespace Shell

open Program Builtin

/-! ## Commands with output: the run and the delivery -/

/-- How an invocation ends once its output is delivered, or is not. -/
def settled (code : ExitCode) (dir : Path) :
    Except Failure Unit → Except Failure ExitCode × Path
  | .ok () => (.ok code, dir)
  | .error f => (.error f, dir)

/-- What follows once a command has ended. -/
def finish (redirect : Option Redirect) (out : Outcome) :
    Program (Except Failure ExitCode × Path) :=
  match out.result with
  | .error f => .done (.error f, out.directory)
  | .ok code => deliver out.directory redirect out.output >>= fun r =>
      .done (settled code out.directory r)

/-- A command is run, and then its output is delivered. -/
theorem delivering_eq_bind (c : Command) (redirect : Option Redirect) (dir : Path) :
    runDelivering c redirect dir = c.run dir >>= finish redirect := by
  refine congrArg _ (funext fun out => ?_)
  rw [finish]
  cases out.result with
  | error f => rfl
  | ok code =>
    refine congrArg (deliver out.directory redirect out.output >>= ·) (funext fun r => ?_)
    cases r <;> rfl

/-- A command with output is run, and then delivered. -/
theorem run_eq_bind {n : Builtin.Name} (hn : n.redirectable = true) (args : List Text)
    (redirect : Option Redirect) (dir : Path) :
    run Builtin.table ⟨n.text, args, redirect⟩ dir =
      (command n args).run dir >>= finish redirect := by
  have hc : (command n args).redirectable = true := hn
  rw [run, find?_table]
  simp only [hc, if_true]
  exact delivering_eq_bind _ _ _

theorem deliver_console (dir : Path) (output : Bytes) :
    deliver dir none output =
      .ask (.print output) fun
        | .ok () => .done (.ok ())
        | .error e => .done (.error (.console e)) := by
  refine congrArg (Program.ask _) (funext fun r => ?_)
  cases r <;> rfl

theorem deliver_file (dir : Path) (r : Redirect) (output : Bytes) :
    deliver dir (some r) output =
      .ask (.files (.write (dir.resolve r.target) r.mode output)) fun
        | .ok () => .done (.ok ())
        | .error e => .done (.error (.io "Error writing to file".toList e.cause)) := by
  refine congrArg (Program.ask _) (funext fun r => ?_)
  cases r <;> rfl

section

variable {out : Outcome} {code : ExitCode}

/-- After a failure nothing is delivered. -/
theorem finish_failed {f : Failure} (hout : out.result = .error f) (redirect : Option Redirect) :
    finish redirect out = .done (.error f, out.directory) := by
  rw [finish, hout]

/-- How the end of a print of the output ends the invocation. -/
def printed (code : ExitCode) : Except IoError Unit → Except Failure ExitCode
  | .ok () => .ok code
  | .error e => .error (.console e)

/-- Output that goes to the console is one last print. -/
theorem finish_printing (hout : out.result = .ok code) :
    finish none out =
      .ask (.print out.output) fun answer => .done (printed code answer, out.directory) := by
  rw [finish, hout]
  dsimp only
  rw [deliver_console]
  refine congrArg (Program.ask _) (funext fun answer => ?_)
  cases answer <;> rfl

/-- How the end of a write ends the invocation that ordered it. -/
def written (code : ExitCode) : Except Files.WriteError Unit → Except Failure ExitCode
  | .ok () => .ok code
  | .error e => .error (.io "Error writing to file".toList e.cause)

/-- Output that goes to a file is one last write. -/
theorem finish_writing (hout : out.result = .ok code) (r : Redirect) :
    finish (some r) out =
      .ask (.files (.write (out.directory.resolve r.target) r.mode out.output)) fun answer =>
        .done (written code answer, out.directory) := by
  rw [finish, hout]
  dsimp only
  rw [deliver_file]
  refine congrArg (Program.ask _) (funext fun answer => ?_)
  cases answer <;> rfl

/-- A delivery leaves the code as it is, or fails by the console or by the machine. -/
theorem result_finish {φ κ : Type} (w : World φ κ) (s : Scene φ κ) (redirect : Option Redirect)
    (hout : out.result = .ok code) :
    let r := ((finish redirect out).run w s).value.1
    r = .ok code ∨ (∃ e, r = .error (.console e)) ∨ ∃ t e, r = .error (.io t e) := by
  intro r
  cases redirect with
  | none =>
    have hr : r = printed code (w.answer (.print out.output) s).1 := by
      simp only [r, finish_printing hout]
      rfl
    rw [hr]
    cases (w.answer (.print out.output) s).1 with
    | ok u => exact .inl rfl
    | error e => exact .inr (.inl ⟨e, rfl⟩)
  | some target =>
    let order : Request :=
      .files (.write (out.directory.resolve target.target) target.mode out.output)
    have hr : r = written code (w.answer order s).1 := by
      simp only [r, finish_writing hout]
      rfl
    rw [hr]
    cases (w.answer order s).1 with
    | ok u => exact .inl rfl
    | error e => exact .inr (.inr ⟨_, e.cause, rfl⟩)

end

/-! ## Commands without output -/

/-- What is put on record about a redirection that is ignored. -/
def remarks (i : Invocation) : List Exchange :=
  match i.redirect with
  | none => []
  | some r => [⟨.note (.redirectIgnored i.name r), ()⟩]

/-- A command without output is run behind the remark. -/
theorem run_eq_showing {n : Builtin.Name} (hn : n.redirectable = false) (args : List Text)
    (redirect : Option Redirect) (dir : Path) :
    run Builtin.table ⟨n.text, args, redirect⟩ dir =
      runShowing (command n args) n.text redirect dir := by
  have hc : (command n args).redirectable = false := hn
  simp only [run, find?_table, hc, Bool.false_eq_true, if_false]

/-- A command without output goes its own way behind the remark. -/
theorem runs_of_not_redirectable {i : Invocation} {n : Builtin.Name} (hname : i.name = n.text)
    (hn : n.redirectable = false) {dir : Path} {es : List Exchange}
    {r : Except Failure ExitCode × Path} (h : (run Builtin.table i dir).Runs es r) :
    ∃ rest out, ((command n i.args).run dir).Runs rest out ∧ es = remarks i ++ rest ∧
      r = (out.result, out.directory) := by
  obtain ⟨name, args, redirect⟩ := i
  obtain rfl : name = n.text := hname
  rw [run_eq_showing hn] at h
  -- behind the remark, both kinds of invocation go on alike
  have hend {es : List Exchange} (h : ((command n args).run dir >>= fun out =>
      Program.done (out.result, out.directory)).Runs es r) :
      ∃ out, ((command n args).run dir).Runs es out ∧ r = (out.result, out.directory) :=
    runs_map_iff.mp h
  cases redirect with
  | none =>
    obtain ⟨out, hout, hr⟩ := hend h
    exact ⟨es, out, hout, rfl, hr⟩
  | some target =>
    cases h with
    | ask _ answer h =>
      obtain ⟨out, hout, hr⟩ := hend h
      exact ⟨_, out, hout, rfl, hr⟩

/-! ## The ways an invocation goes -/

/-- The ways an invocation can go, by the order it gives. -/
inductive Course (i : Invocation) (dir : Path) :
    List Exchange → Except Failure ExitCode → Prop where
  /-- It gives no order, and it is not of a command that changes the files. -/
  | asking {es : List Exchange} (hquiet : ∀ e ∈ es, e.isOrder = false)
      (hname : ∀ n : Builtin.Name, i.name = n.text → n.changes = false)
      (r : Except Failure ExitCode) : Course i dir es r
  /-- It goes the way of its command, which changes the files. -/
  | changing {n : Builtin.Name} (hname : i.name = n.text) (hn : n.changes = true)
      {es : List Exchange} {r : Except Failure Success}
      (hgoes : Goes dir (Plan dir n i.args) es r) :
      Course i dir (remarks i ++ es) (outcome dir r).result
  /-- Its command has succeeded, and its output goes to a file. -/
  | writing {n : Builtin.Name} (hname : i.name = n.text) (hn : n.redirectable = true)
      {target : Redirect} (hredirect : i.redirect = some target) {es : List Exchange}
      {code : ExitCode} {output : Bytes}
      (hrun : ((command n i.args).run dir).Runs es ⟨.ok code, output, dir⟩)
      (answer : Except Files.WriteError Unit) :
      Course i dir
        (es ++ [⟨.files (.write (dir.resolve target.target) target.mode output), answer⟩])
        (written code answer)

variable {i : Invocation} {dir : Path} {es : List Exchange}

theorem changes_eq_false_of_redirectable {n : Builtin.Name} (hn : n.redirectable = true) :
    n.changes = false := by
  cases n <;> first | rfl | cases hn

theorem isOrder_remarks (i : Invocation) : ∀ e ∈ remarks i, e.isOrder = false := by
  unfold remarks
  split
  · simp
  · exact List.forall_mem_singleton.mpr rfl

/-- A command with output gives no order itself. -/
theorem isOrder_of_runs {n : Builtin.Name} (hn : n.redirectable = true) {args : List Text}
    {out : Outcome} (h : ((command n args).run dir).Runs es out) : ∀ e ∈ es, e.isOrder = false :=
  ((keeps_command_quiet (changes_eq_false_of_redirectable hn) args).of_runs h).1

/-- A command with output has read, and its output goes to the console or to a file. -/
theorem course_of_redirectable {n : Builtin.Name} (hname : i.name = n.text)
    (hn : n.redirectable = true) {r : Except Failure ExitCode × Path}
    (h : ((command n i.args).run dir >>= finish i.redirect).Runs es r) : Course i dir es r.1 := by
  have hnames (m : Builtin.Name) (hm : i.name = m.text) : m.changes = false := by
    obtain rfl := Name.text_injective (hname.symm.trans hm)
    exact changes_eq_false_of_redirectable hn
  obtain ⟨before, ⟨result, output, place⟩, after, hrun, hfinish, rfl⟩ := runs_bind_iff.mp h
  -- it stays in its directory, so its target is resolved from there
  obtain rfl : place = dir := ((keeps_command_reads hn i.args).of_runs hrun).2
  have hquiet : ∀ e ∈ before, e.isOrder = false := isOrder_of_runs hn hrun
  cases result with
  | error f =>
    cases hfinish
    exact .asking (by simpa using hquiet) hnames _
  | ok code =>
    cases hredirect : i.redirect with
    | none =>
      rw [hredirect, finish_printing rfl] at hfinish
      cases hfinish with
      | ask _ answer hlast =>
        cases hlast
        have hafter : ∀ e ∈ [(⟨.print output, answer⟩ : Exchange)], e.isOrder = false := by
          simp [Exchange.isOrder]
        exact .asking (List.forall_mem_append.mpr ⟨hquiet, hafter⟩) hnames _
    | some target =>
      rw [hredirect, finish_writing rfl] at hfinish
      cases hfinish with
      | ask _ answer hlast =>
        cases hlast
        exact .writing hname hn hredirect hrun answer

/-- Every invocation goes one of the three ways. -/
theorem course_of_runs {r : Except Failure ExitCode × Path}
    (h : (run Builtin.table i dir).Runs es r) : Course i dir es r.1 := by
  cases hfind : Builtin.table.find? i.name with
  | none =>
    rw [run, hfind] at h
    cases h
    refine .asking (by simp) (fun n hn => ?_) _
    rw [hn, find?_table] at hfind
    cases hfind
  | some make =>
    obtain ⟨n, hname, -⟩ := exists_of_find?_table hfind
    cases hn : n.redirectable with
    | true =>
      obtain ⟨name, args, redirect⟩ := i
      obtain rfl : name = n.text := hname
      rw [run_eq_bind hn] at h
      exact course_of_redirectable rfl hn h
    | false =>
      obtain ⟨rest, out, hrun, rfl, rfl⟩ := runs_of_not_redirectable hname hn h
      cases hchanges : n.changes with
      | true =>
        obtain ⟨g, hgoes, rfl⟩ := goes_command hchanges i.args hrun
        exact .changing hname hchanges hgoes
      | false =>
        have hquiet := ((keeps_command_quiet hchanges i.args).of_runs hrun).1
        refine .asking (List.forall_mem_append.mpr
          ⟨isOrder_remarks i, hquiet⟩) (fun m hm => ?_) _
        obtain rfl := Name.text_injective (hname.symm.trans hm)
        exact hchanges

/-- So does every invocation that is run in a world. -/
theorem course_run {φ κ : Type} (w : World φ κ) (i : Invocation) (dir : Path) (s : Scene φ κ) :
    Course i dir ((run Builtin.table i dir).run w s).exchanges
      ((run Builtin.table i dir).run w s).value.1 :=
  course_of_runs (runs_run w _ s)

end Shell

end FileShell

/-
FileShell.Proofs.Shell.Guarding — at most one order, and only after its
checks.

An order is a call that may change the files. `Warranted` says which order
an invocation may give after which exchanges: the one that its command
plans from its arguments, once every check has been answered as the plan
wants it; or the write of an output to the redirection's target, once the
command has succeeded with this output. `run_orders_once` says that every
run of an invocation gives no order at all or one that is warranted by
what came before it, whatever the file system and the console answer.

`Harmless` lists the invocations that give no order in any case.
-/
import FileShell.Host.FileSystem
import FileShell.Proofs.Shell.Dispatch

namespace FileShell

namespace Shell

open Program Builtin

/-! ## Warranted orders -/

/-- What an invocation may order after some exchanges. -/
inductive Warranted (i : Invocation) (dir : Path) (before : List Exchange) :
    Files.Call → Prop where
  /-- What its command plans: the calls before are the plan's checks, no more and no less. -/
  | planned {n : Builtin.Name} (hname : i.name = n.text) {call : Files.Call} {line : Text}
      (hplan : Plan dir n i.args (before.filter Exchange.isCall) call line) :
      Warranted i dir before call
  /-- The write of its output, where there is a redirection: the exchanges
  before are a whole run of its command, which succeeded. -/
  | output {n : Builtin.Name} (hname : i.name = n.text) (hn : n.redirectable = true)
      {r : Redirect} (hredirect : i.redirect = some r) {code : ExitCode} {content : Bytes}
      (hrun : ((command n i.args).run dir).Runs before ⟨.ok code, content, dir⟩) :
      Warranted i dir before (.write (dir.resolve r.target) r.mode content)

/-- Among the exchanges there is one order, and it is warranted. -/
def OneOrder (i : Invocation) (dir : Path) (es : List Exchange) : Prop :=
  ∃ before call answer after, es = before ++ ⟨.files call, answer⟩ :: after ∧
    call.isQuestion = false ∧ Warranted i dir before call ∧
    (∀ e ∈ before, e.isOrder = false) ∧ ∀ e ∈ after, e.isOrder = false

/-- Invocations that give no order, whatever is answered. -/
inductive Harmless (i : Invocation) : Prop where
  | unknown (h : ∀ n : Builtin.Name, i.name ≠ n.text)
  | asking {n : Builtin.Name} (hname : i.name = n.text) (hn : n = .pwd ∨ n = .cd ∨ n = .help)
  | lacking {n : Builtin.Name} (hname : i.name = n.text) (h : i.args.length < n.least)

variable {i : Invocation} {dir : Path}

/-- Nothing warrants an order of a harmless invocation. -/
theorem Warranted.not_harmless {before : List Exchange} {call : Files.Call}
    (h : Warranted i dir before call) : ¬ Harmless i := by
  intro hi
  cases h with
  | planned hname hplan =>
    cases hi with
    | unknown hnone => exact hnone _ hname
    | asking hname' hn =>
      obtain rfl := Name.text_injective (hname.symm.trans hname')
      have hchanges := hplan.changes
      rcases hn with rfl | rfl | rfl <;> cases hchanges
    | lacking hname' hargs =>
      obtain rfl := Name.text_injective (hname.symm.trans hname')
      exact absurd hplan.least_le (Nat.not_le.mpr hargs)
  | output hname hn _ hrun =>
    cases hi with
    | unknown hnone => exact hnone _ hname
    | asking hname' hn' =>
      obtain rfl := Name.text_injective (hname.symm.trans hname')
      rcases hn' with rfl | rfl | rfl <;> cases hn
    | lacking hname' hargs =>
      obtain rfl := Name.text_injective (hname.symm.trans hname')
      obtain ⟨line, hlacking⟩ := run_command_of_lt hargs dir
      rw [hlacking] at hrun
      cases hrun

/-! ## One order -/

/-- An order that a plan ends in. -/
theorem oneOrder_of_plan {n : Builtin.Name} (hname : i.name = n.text) {checks : List Exchange}
    {call : Files.Call} {line : Text} (hplan : Plan dir n i.args checks call line)
    (answer : call.Answer) {after : List Exchange} (hafter : ∀ e ∈ after, e.isOrder = false) :
    OneOrder i dir (remarks i ++ (checks ++ ⟨.files call, answer⟩ :: after)) := by
  -- the remark in front is no call, so the calls before the order are the checks
  have hcalls : (remarks i ++ checks).filter Exchange.isCall = checks := by
    have hremarks : (remarks i).filter Exchange.isCall = [] := by
      unfold remarks
      split <;> rfl
    rw [List.filter_append, hremarks, hplan.filter_isCall, List.nil_append]
  have hquiet : ∀ e ∈ remarks i ++ checks, e.isOrder = false :=
    List.forall_mem_append.mpr ⟨isOrder_remarks i, hplan.isOrder_of_mem⟩
  exact ⟨remarks i ++ checks, call, answer, after, by simp, hplan.isQuestion_eq_false,
    .planned hname (hcalls.symm ▸ hplan), hquiet, hafter⟩

/-- Every way of an invocation gives no order, or a warranted one. -/
theorem Course.orders {es : List Exchange} {r : Except Failure ExitCode}
    (h : Course i dir es r) : (∀ e ∈ es, e.isOrder = false) ∨ OneOrder i dir es := by
  cases h with
  | asking hquiet _ _ => exact .inl hquiet
  | changing hname _ hgoes =>
    cases hgoes with
    | gaveUp hquiet f =>
      exact .inl (List.forall_mem_append.mpr ⟨isOrder_remarks i, hquiet⟩)
    | refused hplan _ f => exact .inr (oneOrder_of_plan hname hplan _ (by simp))
    | unsaid hplan _ c =>
      exact .inr (oneOrder_of_plan hname hplan _ (by simp [Exchange.isOrder]))
    | said hplan _ =>
      exact .inr (oneOrder_of_plan hname hplan _ (by simp [Exchange.isOrder]))
  | writing hname hn hredirect hrun answer =>
    exact .inr ⟨_, _, answer, [], rfl, rfl, .output hname hn hredirect hrun,
      isOrder_of_runs hn hrun, by simp⟩

/-- A segment that is no invocation is reported, and no more. -/
theorem keeps_runEntry_error (table : CommandTable) (f : Failure) :
    (runEntry table (.error f) dir).Keeps (fun e => e.isOrder = false) fun _ => True := by
  intro answer
  refine ⟨rfl, ?_⟩
  cases answer with
  | ok _ => trivial
  | error e => exact fun _ => ⟨rfl, trivial⟩

/-- One run of an invocation of the eleven commands, with any file system,
any console and from any directory, gives no order or one, and that one is
warranted by the arguments, the redirection and the answers before it. An
unknown name, `pwd`, `cd`, `help`, a command that lacks arguments and a
segment that could not be read give none. -/
theorem run_orders_once {φ κ : Type} (w : World φ κ) (i : Invocation) (dir : Path)
    (s : Scene φ κ) :
    let es := ((run Builtin.table i dir).run w s).exchanges
    ((∀ e ∈ es, e.isOrder = false) ∨ OneOrder i dir es) ∧
    (Harmless i → ∀ e ∈ es, e.isOrder = false) ∧
    ∀ f, ∀ e ∈ ((runEntry Builtin.table (.error f) dir).run w s).exchanges,
      e.isOrder = false := by
  have horders := (course_run w i dir s).orders
  refine ⟨horders, fun hi => ?_, fun f => (keeps_run w (keeps_runEntry_error _ f) s).1⟩
  rcases horders with hquiet | ⟨_, _, _, _, _, _, hwarranted, _, _⟩
  · exact hquiet
  · exact absurd hi hwarranted.not_harmless

/-- An empty directory is removed after three questions; `mv` with one
argument asks for nothing. -/
theorem run_orders_once_rmdir :
    let w := Host.world Host.fileSystem Console.screen
    let s : Scene Host Console.Screen :=
      ⟨⟨.directory 0 [(['d'], .directory 0 [])], .inTree []⟩, {}⟩
    let removal : Invocation := ⟨Builtin.Name.rmdir.text, [['d']], none⟩
    let lacking : Invocation := ⟨Builtin.Name.mv.text, [['d']], none⟩
    OneOrder removal Path.root ((run Builtin.table removal Path.root).run w s).exchanges ∧
      ∀ e ∈ ((run Builtin.table lacking Path.root).run w s).exchanges, e.isOrder = false := by
  intro w s removal lacking
  have hordered : ((run Builtin.table removal Path.root).run w s).exchanges.any
      Exchange.isOrder = true := rfl
  refine ⟨?_, (run_orders_once w lacking Path.root s).2.1 (.lacking (n := .mv) rfl (by decide))⟩
  rcases (run_orders_once w removal Path.root s).1 with hquiet | hone
  · obtain ⟨e, he, horder⟩ := List.any_eq_true.mp hordered
    rw [hquiet e he] at horder
    cases horder
  · exact hone

end Shell

end FileShell

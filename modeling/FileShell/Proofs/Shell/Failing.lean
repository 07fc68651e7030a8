/-
FileShell.Proofs.Shell.Failing — what a failure leaves behind.

A command that changes the files orders first and speaks afterwards, and a
write is under way once its target is open. So there are two failures
behind which an order may have been carried out (`Belated`): the console
did not take the line that says so, or the target of a redirection was
opened and then refused the content. Both come with the last thing that
was asked. After any other failure no order has been carried out.

The other way round, a command that changes the files and succeeds has
given one order, which was carried out, and has shown its line and nothing
else (`run_carries_out`).
-/
import FileShell.Host.FileSystem
import FileShell.Proofs.Program.Printing
import FileShell.Proofs.Shell.Dispatch

namespace FileShell

namespace Shell

open Program Builtin

/-- A failure that comes behind an order, with the refusal it comes from. -/
inductive Belated (i : Invocation) (dir : Path) (es : List Exchange) : Failure → Prop where
  /-- The console refused to say what was done. -/
  | unsaid {n : Builtin.Name} (hname : i.name = n.text) {checks : List Exchange}
      {call : Files.Call} {line : Text} (hplan : Plan dir n i.args checks call line)
      {c : IoError} (hlast : es.getLast? = some ⟨.print line.bytes, .error c⟩) :
      Belated i dir es (.console c)
  /-- The target was opened, and writing to it failed. -/
  | unwritten {r : Redirect} (hredirect : i.redirect = some r) {content : Bytes} {c : IoError}
      (hlast : es.getLast? =
        some ⟨.files (.write (dir.resolve r.target) r.mode content), .error (.writing c)⟩) :
      Belated i dir es (.io "Error writing to file".toList c)

variable {i : Invocation} {dir : Path} {es : List Exchange}

theorem carriedOut_of_quiet (h : ∀ e ∈ es, e.isOrder = false) : ∀ e ∈ es, e.carriedOut = false := by
  intro e he
  cases hdone : e.carriedOut with
  | false => rfl
  | true => rw [← h e he, Exchange.isOrder_of_carriedOut hdone]

/-- Nothing was carried out where the last exchange alone may be an order and was refused. -/
theorem carriedOut_of_last {before : List Exchange} {last : Exchange}
    (h : ∀ e ∈ before, e.isOrder = false) (hlast : last.carriedOut = false) :
    ∀ e ∈ before ++ [last], e.carriedOut = false :=
  List.forall_mem_append.mpr ⟨carriedOut_of_quiet h, List.forall_mem_singleton.mpr hlast⟩

/-- A failure comes before any order is carried out, or it is one of two. -/
theorem Course.failed {f : Failure} (h : Course i dir es (.error f)) :
    (∀ e ∈ es, e.carriedOut = false) ∨ Belated i dir es f := by
  -- the result stays an equation: the cases that end well contradict it, the late ones fix `f`
  generalize hr : (Except.error f : Except Failure ExitCode) = r at h
  cases h with
  | asking hquiet _ _ => exact .inl (carriedOut_of_quiet hquiet)
  | changing hname _ hgoes =>
    cases hgoes with
    | gaveUp hquiet f =>
      exact .inl (carriedOut_of_quiet (List.forall_mem_append.mpr ⟨isOrder_remarks i, hquiet⟩))
    | refused hplan hanswer f =>
      rw [← List.append_assoc]
      exact .inl (carriedOut_of_last
        (List.forall_mem_append.mpr ⟨isOrder_remarks i, hplan.isOrder_of_mem⟩) hanswer)
    | unsaid hplan _ c =>
      cases hr
      exact .inr (.unsaid hname hplan (by simp))
    | said hplan _ => cases hr
  | writing hname hn hredirect hrun answer =>
    match answer, hr with
    | .error (.opening c), _ => exact .inl (carriedOut_of_last (isOrder_of_runs hn hrun) rfl)
    | .error (.writing c), hr =>
      cases hr
      exact .inr (.unwritten hredirect List.getLast?_concat)

/-! ## Success -/

theorem prints_remarks (i : Invocation) : prints (remarks i) = [] := by
  unfold remarks
  split <;> rfl

theorem taken_remarks (i : Invocation) : ∀ e ∈ remarks i, e.taken = true := by
  unfold remarks
  split
  · simp
  · exact List.forall_mem_singleton.mpr rfl

section

variable {n : Builtin.Name} {args : List Text} {checks : List Exchange} {call : Files.Call}
  {line : Text}

/-- A plan prints nothing before its line. -/
theorem prints_of_plan (h : Plan dir n args checks call line) : prints checks = [] := by
  cases h <;> rfl

theorem taken_of_plan (h : Plan dir n args checks call line) : ∀ e ∈ checks, e.taken = true := by
  have hall : checks.all Exchange.taken = true := by cases h <;> rfl
  exact List.all_eq_true.mp hall

end

theorem filter_isOrder_of_quiet (h : ∀ e ∈ es, e.isOrder = false) :
    es.filter Exchange.isOrder = [] := by
  simpa [List.filter_eq_nil_iff] using h

/-- A command that changes the files and succeeds has given its order and said its line. -/
theorem Course.succeeded {n : Builtin.Name} (hname : i.name = n.text) (hn : n.changes = true)
    {code : ExitCode} (h : Course i dir es (.ok code)) :
    ∃ checks call line answer, Plan dir n i.args checks call line ∧
      Exchange.carriedOut ⟨.files call, answer⟩ = true ∧
      es = remarks i ++ (checks ++ [⟨.files call, answer⟩, ⟨.print line.bytes, .ok ()⟩]) := by
  generalize hr : (Except.ok code : Except Failure ExitCode) = r at h
  cases h with
  | asking _ hnames _ => rw [hnames n hname] at hn; cases hn
  | changing hname' _ hgoes =>
    obtain rfl := Name.text_injective (hname.symm.trans hname')
    cases hgoes with
    | gaveUp _ f => cases hr
    | refused _ _ f => cases hr
    | unsaid _ _ c => cases hr
    | said hplan hanswer => exact ⟨_, _, _, _, hplan, hanswer, rfl⟩
  | writing hname' hn' _ _ _ =>
    obtain rfl := Name.text_injective (hname.symm.trans hname')
    rw [changes_eq_false_of_redirectable hn'] at hn
    cases hn

/-- One run of an invocation of the eleven commands, with any file system,
any console and from any directory. If it fails, no order was carried out,
unless the console refused the line that says what was done, or a
redirection's target was opened and then refused the content. If a command
that changes the files succeeds, it has given exactly one order, which was
carried out, and shown exactly its one line. -/
theorem run_carries_out {φ κ : Type} (w : World φ κ) (i : Invocation) (dir : Path)
    (s : Scene φ κ) :
    let p := run Builtin.table i dir
    let es := (p.run w s).exchanges
    (∀ f, (p.run w s).value.1 = .error f →
      (∀ e ∈ es, e.carriedOut = false) ∨ Belated i dir es f) ∧
    ∀ n : Builtin.Name, n.changes = true → i.name = n.text → (p.run w s).value.1 = .ok 0 →
      ∃ checks call line answer, Plan dir n i.args checks call line ∧
        es.filter Exchange.isOrder = [⟨.files call, answer⟩] ∧
        Exchange.carriedOut ⟨.files call, answer⟩ = true ∧
        prints es = [line.bytes] ∧ p.shown w s = line.bytes := by
  intro p es
  have hcourse : Course i dir es (p.run w s).value.1 := course_run w i dir s
  refine ⟨fun f hf => (hf ▸ hcourse).failed, fun n hn hname hok => ?_⟩
  obtain ⟨checks, call, line, answer, hplan, hanswer, hes⟩ :=
    (hok ▸ hcourse).succeeded hname hn
  have hprints : prints es = [line.bytes] := by
    rw [hes, prints_append, prints_append, prints_remarks, prints_of_plan hplan]
    rfl
  have htaken : ∀ e ∈ es, e.taken = true := by
    rw [hes]
    refine List.forall_mem_append.mpr ⟨taken_remarks i, ?_⟩
    refine List.forall_mem_append.mpr ⟨taken_of_plan hplan, ?_⟩
    exact List.forall_mem_cons.mpr ⟨rfl, List.forall_mem_singleton.mpr rfl⟩
  refine ⟨checks, call, line, answer, hplan, ?_, hanswer, hprints, ?_⟩
  · have horder : Exchange.isOrder ⟨.files call, answer⟩ = true :=
      Exchange.isOrder_of_carriedOut hanswer
    rw [hes, List.filter_append, List.filter_append,
      filter_isOrder_of_quiet (isOrder_remarks i), filter_isOrder_of_quiet hplan.isOrder_of_mem]
    exact List.filter_cons_of_pos horder
  · rw [shown_eq_flatten_of_taken w p htaken]
    change (prints es).flatten = line.bytes
    rw [hprints, List.flatten_singleton]

/-- A directory that is made on a full screen is there although `mkdir`
fails; with room on the screen there is one order and no failure. -/
theorem run_carries_out_mkdir :
    let w := Host.world Host.fileSystem Console.screen
    let files : Host := ⟨.directory 0 [], .inTree []⟩
    let i : Invocation := ⟨Builtin.Name.mkdir.text, [['d']], none⟩
    let p := run Builtin.table i Path.root
    Belated i Path.root (p.run w ⟨files, { room := some 0 }⟩).exchanges
        (.console Console.full) ∧
      ((p.run w ⟨files, {}⟩).exchanges.filter Exchange.isOrder).length = 1 := by
  intro w files i p
  have hmade : (p.run w ⟨files, { room := some 0 }⟩).exchanges.any Exchange.carriedOut = true :=
    rfl
  constructor
  · rcases (run_carries_out w i Path.root ⟨files, { room := some 0 }⟩).1 _ rfl with hnone | hlate
    · obtain ⟨e, he, hdone⟩ := List.any_eq_true.mp hmade
      rw [hnone e he] at hdone
      cases hdone
    · exact hlate
  · obtain ⟨_, _, _, _, _, horder, _⟩ :=
      (run_carries_out w i Path.root ⟨files, {}⟩).2 .mkdir rfl rfl rfl
    rw [horder, List.length_singleton]

end Shell

end FileShell

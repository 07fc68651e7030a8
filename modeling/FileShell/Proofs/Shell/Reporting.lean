/-
FileShell.Proofs.Shell.Reporting — exit codes and error lines.

Errors are shown in two places: `cat` reports the files it could not read
and goes on, and the shell shows the failure of a segment. `errorLines` are
the lines of both kinds that a segment writes. What a command was asked to
show is not among them, however it reads: `echo Error: x` succeeds
(`Spoken` keeps the two apart, and `prints_runEntry` says that between them
and the shell's own line nothing is left out).

A run that succeeds with code 1 is a `cat` that has reported something, a
run that succeeds with any other code has the code 0 and has reported
nothing (`own_errors`), and a run that fails is shown by one line
(`prints_settle_error`). So the code of a segment is 1 exactly if there is
an error line, whether or not the console took it. A line has the code of
its last segment that is not blank.
-/
import FileShell.Proofs.Builtin.Gathering
import FileShell.Proofs.Shell.Failing
import FileShell.Proofs.Shell.Routing
import FileShell.Proofs.Shell.Whereabouts
import FileShell.Proofs.Text.Ordering

namespace FileShell

variable {φ κ : Type}

/-! ## Error lines -/

/-- Whether a print begins the way a failure is shown. -/
def isErrorLine (content : Bytes) : Bool := (Text.bytes "Error: ".toList).isPrefixOf content

theorem isErrorLine_line (f : Failure) : isErrorLine f.line.bytes = true := by
  have hline : f.line = "Error: ".toList ++ (f.message ++ ['\n']) := List.append_assoc _ _ _
  rw [isErrorLine, List.isPrefixOf_iff_prefix, hline, Text.bytes, Text.bytes, Utf8.encode_append]
  exact List.prefix_append _ _

/-- A text with another first letter is no error line. -/
theorem isErrorLine_cons {c : Char} (hc : (String.utf8EncodeChar c).head? ≠ some 69) (t : Text) :
    isErrorLine (Text.bytes (c :: t)) = false := by
  have herror : Text.bytes "Error: ".toList = [69, 114, 114, 111, 114, 58, 32] := by decide
  rw [isErrorLine, herror, Text.bytes, Utf8.encode_cons]
  cases h : String.utf8EncodeChar c with
  | nil => exact absurd h String.utf8EncodeChar_ne_nil
  | cons b bs =>
    rw [h] at hc
    have hb : (69 == b) = false := beq_false_of_ne fun he => hc (he ▸ rfl)
    rw [List.cons_append, List.isPrefixOf, hb, Bool.false_and]

/-- Whether an exchange writes an error line, taken or not. -/
def Exchange.isError : Exchange → Bool
  | ⟨.print content, _⟩ => isErrorLine content
  | _ => false

theorem filter_prints_eq_nil {es : List Exchange} (h : ∀ e ∈ es, e.isError = false) :
    (prints es).filter isErrorLine = [] := by
  simp only [List.filter_eq_nil_iff, prints, List.mem_filterMap]
  rintro content ⟨⟨r, answer⟩, he, hprinted⟩
  cases r with
  | print content' =>
    cases hprinted
    exact Bool.eq_false_iff.mp (h _ he)
  | _ => cases hprinted

theorem filter_reports (reports : List Failure) :
    (reports.map (·.line.bytes)).filter isErrorLine = reports.map (·.line.bytes) := by
  rw [List.filter_eq_self]
  intro content hcontent
  obtain ⟨f, -, rfl⟩ := List.mem_map.mp hcontent
  exact isErrorLine_line f

namespace Builtin

open Program

variable {dir : Path}

/-! ## The commands but `cat`

None of them writes an error line itself, and the code of each is 0 if it
succeeds. -/

theorem isErrorLine_helpText : isErrorLine helpText.bytes = false := by
  obtain ⟨rest, hhelp⟩ : ∃ rest, helpText = 'S' :: rest := by
    set_option maxRecDepth 8000 in
    exact ⟨_, String.toList_ofList⟩
  rw [hhelp]
  exact isErrorLine_cons (by decide) rest

/-- `pwd` is apart: its directory may have a name that reads like an error line. -/
theorem Requests.isError {b : Builtin} (hcat : b.name ≠ .cat) (hpwd : b.name ≠ .pwd) {r : Request}
    (h : Requests dir b r) (answer : r.Answer) : Exchange.isError ⟨r, answer⟩ = false := by
  cases h with
  | catReport => exact absurd rfl hcat
  | pwdPrint => exact absurd rfl hpwd
  | cdPrint => exact isErrorLine_cons (c := 'C') (by decide) _
  | mkdirPrint | rmdirPrint => exact isErrorLine_cons (c := 'D') (by decide) _
  | rmPrint | touchPrint => exact isErrorLine_cons (c := 'F') (by decide) _
  | mvPrint => exact isErrorLine_cons (c := 'M') (by decide) _
  | helpPrint => exact isErrorLine_helpText
  | _ => rfl

theorem Ends.code {b : Builtin} (hcat : b.name ≠ .cat) {s : Success} (h : Ends dir b s) :
    s.code = 0 := by
  cases h with
  | plain => rfl
  | cat => exact absurd rfl hcat
  | cd => rfl

theorem clean_command {n : Name} (hcat : n ≠ .cat) (args : List Text) :
    ((command n args).run dir).Keeps (fun e => n ≠ .pwd → e.isError = false)
      fun out => ∀ code, out.result = .ok code → code = 0 := by
  refine keeps_command_of (fun b e hb he hpwd => ?_) (fun b s hb hs code hcode => ?_)
    (fun f code hcode => nomatch hcode) args
  · exact he.isError (hb ▸ hcat) (hb ▸ hpwd) e.answer
  · exact (Except.ok.inj hcode).symm.trans (hs.code (hb ▸ hcat))

/-! ## All commands -/

/-- A `cat` that succeeds has the code 1 if it has reported something, and
the code 0 if not. -/
theorem code_of_runs_cat {args : List Text} {es : List Exchange} {out : Outcome}
    (h : ((command .cat args).run dir).Runs es out) {code : ExitCode} (hok : out.result = .ok code) :
    code = if prints es = [] then 0 else 1 := by
  cases args with
  | nil =>
    rw [run_command_error rfl] at h
    cases h
    cases hok
  | cons name names =>
    rw [run_command_ok rfl] at h
    obtain ⟨r, hr, rfl⟩ := runs_map_iff.mp h
    cases r with
    | error f => cases hok
    | ok success =>
      obtain ⟨found, -, rfl, rfl⟩ := runs_runCat_iff.mp hr
      cases hok
      simp only [Findings.prints_exchanges, List.map_eq_nil_iff, Findings.gathered]

/-- The error lines that a command writes itself. Only `cat` does, and its
are reports; and only with them is there a success that has the code 1. -/
theorem own_errors (w : World φ κ) (n : Name) (args : List Text) (dir : Path) (s : Scene φ κ) :
    let own := ((command n args).run dir).run w s
    let errors := (prints own.exchanges).filter isErrorLine
    (n ≠ .pwd → n ≠ .cat → errors = []) ∧
    (n = .cat → ∃ reports : List Failure, errors = reports.map (·.line.bytes)) ∧
    ∀ code, own.value.result = .ok code →
      (code = 0 ∧ (n ≠ .pwd → errors = [])) ∨ (code = 1 ∧ errors ≠ [] ∧ n = .cat) := by
  intro own errors
  by_cases hcat : n = .cat
  · subst hcat
    have hkeeps : ((command .cat args).run dir).Keeps (Reads dir) _ := keeps_command_reads rfl args
    obtain ⟨hreads, -⟩ := keeps_run w hkeeps s
    obtain ⟨reports, hreports⟩ := exists_reports hreads
    have herrors : errors = prints own.exchanges := by
      simp only [errors, own, hreports, filter_reports]
    refine ⟨fun _ h => absurd rfl h, fun _ => ⟨reports, herrors.trans hreports⟩, fun code hok => ?_⟩
    rw [herrors, code_of_runs_cat (runs_run w _ s) hok]
    by_cases hnone : prints own.exchanges = []
    · exact .inl ⟨if_pos hnone, fun _ => hnone⟩
    · exact .inr ⟨if_neg hnone, hnone, rfl⟩
  · obtain ⟨hquiet, hcode⟩ := keeps_run w (clean_command hcat args) s
    have hnone (hpwd : n ≠ .pwd) : errors = [] :=
      filter_prints_eq_nil fun e he => hquiet e he hpwd
    exact ⟨fun hpwd _ => hnone hpwd, fun h => absurd h hcat,
      fun code hok => .inl ⟨hcode code hok, hnone⟩⟩

end Builtin

namespace Shell

open Program Builtin

/-! ## What a segment writes -/

/-- What a segment has written to the console once it has its result. -/
structure Spoken where
  /-- What its command has to say. -/
  lines : List Bytes
  /-- What its command was asked to show. -/
  output : List Bytes

/-- Of a command's output what is delivered to the console. -/
def delivered (c : Command) (redirect : Option Redirect) (out : Outcome) : List Bytes :=
  match c.redirectable, redirect, out.result with
  | true, none, .ok _ => [out.output]
  | _, _, _ => []

/-- What a segment run from a scene has written to the console once it has
its result. What `pwd` writes is what it was asked to show. -/
def spoken (w : World φ κ) (entry : Except Failure Invocation) (dir : Path) (s : Scene φ κ) :
    Spoken :=
  match entry with
  | .error _ => ⟨[], []⟩
  | .ok i =>
    match Builtin.table.find? i.name with
    | none => ⟨[], []⟩
    | some make =>
      let own := ((make i.args).run dir).run w s
      if i.name = Builtin.Name.pwd.text then ⟨[], prints own.exchanges⟩
      else ⟨prints own.exchanges, delivered (make i.args) i.redirect own.value⟩

/-- A segment up to its result. -/
def unsettled (table : CommandTable) (entry : Except Failure Invocation) (dir : Path) :
    Program (Except Failure ExitCode × Path) :=
  match entry with
  | .error f => .done (.error f, dir)
  | .ok i => run table i dir

theorem runEntry_eq (table : CommandTable) (entry : Except Failure Invocation) (dir : Path) :
    runEntry table entry dir =
      unsettled table entry dir >>= fun r => settle r.1 >>= fun code => .done (code, r.2) := by
  cases entry <;> rfl

section

variable (w : World φ κ) (entry : Except Failure Invocation) (dir : Path) (s : Scene φ κ)

/-- The result of a segment run from a scene. -/
def result : Except Failure ExitCode := ((unsettled Builtin.table entry dir).run w s).value.1

/-- What the shell writes about a segment run from a scene. -/
def shellLines : List Bytes :=
  let r := (unsettled Builtin.table entry dir).run w s
  prints ((settle r.value.1).run w r.scene).exchanges

/-- The error lines of a segment run from a scene. -/
def errorLines : List Bytes :=
  ((spoken w entry dir s).lines ++ shellLines w entry dir s).filter isErrorLine

end

variable (w : World φ κ)

/-! ## Results -/

/-- What is delivered is all that is printed behind a command's own run. -/
theorem prints_finish {c : Command} (hc : c.redirectable = true) (redirect : Option Redirect)
    (out : Outcome) (s : Scene φ κ) :
    prints ((finish redirect out).run w s).exchanges = delivered c redirect out := by
  unfold delivered
  simp only [hc]
  cases hout : out.result with
  | error f =>
    rw [finish_failed hout]
    cases redirect <;> rfl
  | ok code =>
    cases redirect with
    | none =>
      rw [finish_printing hout]
      rfl
    | some r =>
      rw [finish_writing hout]
      rfl

/-- Output is delivered for a success only, and its code stays. -/
theorem result_of_finish {redirect : Option Redirect} {out : Outcome} {s : Scene φ κ}
    {code : ExitCode} (h : ((finish redirect out).run w s).value.1 = .ok code) :
    out.result = .ok code := by
  cases hout : out.result with
  | error f =>
    rw [finish_failed hout] at h
    cases h
  | ok code' =>
    rcases result_finish w s redirect hout with hr | ⟨e, hr⟩ | ⟨t, e, hr⟩
    · exact hr.symm.trans h
    · cases hr.symm.trans h
    · cases hr.symm.trans h

/-- An invocation prints what its command writes and what is delivered, and
if it succeeds its command has. -/
theorem prints_run (n : Builtin.Name) (args : List Text) (redirect : Option Redirect) (dir : Path)
    (s : Scene φ κ) :
    let i : Invocation := ⟨n.text, args, redirect⟩
    let own := ((command n args).run dir).run w s
    let whole := (run Builtin.table i dir).run w s
    prints whole.exchanges =
        prints own.exchanges ++ delivered (command n args) redirect own.value ∧
      ∀ code, whole.value.1 = .ok code → own.value.result = .ok code := by
  intro i own whole
  cases hn : n.redirectable with
  | true =>
    simp only [whole, i, run_eq_bind hn, run_bind, prints_append]
    exact ⟨congrArg (prints own.exchanges ++ ·) (prints_finish w hn redirect own.value _),
      fun code hok => result_of_finish w hok⟩
  | false =>
    have hdelivered : delivered (command n args) redirect own.value = [] := by
      have hc : (command n args).redirectable = false := hn
      unfold delivered
      rw [hc]
    simp only [whole, i, run_of_not_redirectable w hn, prints_append]
    rw [prints_remarks, hdelivered, List.nil_append, List.append_nil]
    exact ⟨rfl, fun code hok => hok⟩

theorem prints_settle_error (f : Failure) (s : Scene φ κ) :
    prints ((settle (.error f)).run w s).exchanges = [f.line.bytes] ∧
      ((settle (.error f)).run w s).value = 1 := by
  have hreport : prints ((reportFailure f).run w s).exchanges = [f.line.bytes] := by
    unfold reportFailure printText request
    rw [ask_bind, run_ask]
    cases (w.answer (.print f.line.bytes) s).1 <;> rfl
  rw [settle, run_bind, prints_append, hreport]
  exact ⟨rfl, rfl⟩

/-! ## Segments -/

section

variable (entry : Except Failure Invocation) (dir : Path) (s : Scene φ κ)

/-- Nothing is written by a segment that is neither said by its command, nor
shown because it was asked for, nor said by the shell. -/
theorem prints_runEntry :
    prints ((runEntry Builtin.table entry dir).run w s).exchanges =
      (spoken w entry dir s).lines ++ (spoken w entry dir s).output ++ shellLines w entry dir s := by
  have hunsettled : prints ((unsettled Builtin.table entry dir).run w s).exchanges =
      (spoken w entry dir s).lines ++ (spoken w entry dir s).output := by
    cases entry with
    | error f => rfl
    | ok i =>
      obtain ⟨name, args, redirect⟩ := i
      rw [unsettled, spoken]
      cases hfind : Builtin.table.find? name with
      | none => simp only [run, hfind]; rfl
      | some make =>
        obtain ⟨n, rfl, rfl⟩ := exists_of_find?_table hfind
        rw [(prints_run w n args redirect dir s).1]
        dsimp only
        split
        · next hpwd =>
          obtain rfl := Name.text_injective hpwd
          exact List.append_nil _
        · rfl
  rw [runEntry_eq, run_bind, run_bind, prints_append, prints_append, hunsettled]
  exact congrArg (_ ++ ·) (List.append_nil _)

/-- The shell writes one line about a failure, and none about a success. -/
theorem shellLines_of_result :
    (∀ f, result w entry dir s = .error f → shellLines w entry dir s = [f.line.bytes]) ∧
      ∀ code, result w entry dir s = .ok code → shellLines w entry dir s = [] := by
  unfold result shellLines
  constructor
  · intro f hf
    simp only [hf]
    exact (prints_settle_error w f _).1
  · intro code hok
    simp only [hok]
    rfl

/-- Of the commands only `cat` writes error lines, and its are reports. A
segment that succeeds has the code 0 and none, or the code 1 and some. -/
theorem spoken_errors :
    let errors := (spoken w entry dir s).lines.filter isErrorLine
    (∃ reports : List Failure, errors = reports.map (·.line.bytes)) ∧
    (errors ≠ [] → ∃ i, entry = .ok i ∧ i.name = Builtin.Name.cat.text) ∧
    ∀ code, result w entry dir s = .ok code →
      (code = 0 ∧ errors = []) ∨ (code = 1 ∧ errors ≠ []) := by
  cases entry with
  | error f => exact ⟨⟨[], rfl⟩, fun h => absurd rfl h, fun code hok => nomatch hok⟩
  | ok i =>
    obtain ⟨name, args, redirect⟩ := i
    rw [spoken, result, unsettled]
    cases hfind : Builtin.table.find? name with
    | none =>
      refine ⟨⟨[], rfl⟩, fun h => absurd rfl h, fun code hok => ?_⟩
      rw [run, hfind] at hok
      cases hok
    | some make =>
      obtain ⟨n, rfl, rfl⟩ := exists_of_find?_table hfind
      obtain ⟨hothers, hreports, hcode⟩ := own_errors w n args dir s
      have hown := (prints_run w n args redirect dir s).2
      dsimp only
      split
      · next hpwd =>
        obtain rfl := Name.text_injective hpwd
        refine ⟨⟨[], rfl⟩, fun h => absurd rfl h, fun code hok => .inl ⟨?_, rfl⟩⟩
        rcases hcode code (hown code hok) with ⟨hzero, _⟩ | ⟨_, _, hcat⟩
        · exact hzero
        · cases hcat
      · next hpwd =>
        have hn : n ≠ .pwd := fun h => hpwd (h ▸ rfl)
        by_cases hcat : n = .cat
        · subst hcat
          refine ⟨hreports rfl, fun _ => ⟨_, rfl, rfl⟩, fun code hok => ?_⟩
          rcases hcode code (hown code hok) with ⟨hzero, hnone⟩ | ⟨hone, hsome, _⟩
          · exact .inl ⟨hzero, hnone hn⟩
          · exact .inr ⟨hone, hsome⟩
        · refine ⟨⟨[], hothers hn hcat⟩, fun h => absurd (hothers hn hcat) h, fun code hok => ?_⟩
          rcases hcode code (hown code hok) with ⟨hzero, hnone⟩ | ⟨_, _, h⟩
          · exact .inl ⟨hzero, hnone hn⟩
          · exact absurd h hcat

/-- A segment has the code 1 if it writes an error line, and the code 0 if not. -/
theorem code_runEntry :
    ((runEntry Builtin.table entry dir).run w s).value.1 =
      if errorLines w entry dir s = [] then 0 else 1 := by
  obtain ⟨_, _, hcode⟩ := spoken_errors w entry dir s
  obtain ⟨hfailed, hdone⟩ := shellLines_of_result w entry dir s
  have hvalue : ((runEntry Builtin.table entry dir).run w s).value.1 =
      ((settle (result w entry dir s)).run w
        ((unsettled Builtin.table entry dir).run w s).scene).value := by
    rw [runEntry_eq, run_bind_value, run_bind_value]
    rfl
  rw [hvalue, errorLines, List.filter_append]
  cases hresult : result w entry dir s with
  | error f =>
    have hshell : (shellLines w entry dir s).filter isErrorLine ≠ [] := by
      rw [hfailed f hresult]
      simp [isErrorLine_line]
    rw [(prints_settle_error w f _).2, if_neg fun h => hshell (List.append_eq_nil_iff.mp h).2]
  | ok code =>
    rw [hdone code hresult, List.filter_nil, List.append_nil]
    rcases hcode code hresult with ⟨rfl, hnone⟩ | ⟨rfl, hsome⟩
    · rw [if_pos hnone]
      rfl
    · rw [if_neg hsome]
      rfl

end

/-! ## Lines -/

/-- A flush writes nothing. -/
theorem quiet_flush (s : Scene φ κ) :
    ∀ e ∈ (flush.run w s).exchanges, e.request = .flush ∨ ∃ record, e.request = .note record := by
  rw [flush_eq, run_ask]
  cases (w.answer .flush s).1 with
  | ok _ => simp
  | error e => simp [run_ask]

theorem prints_eq_nil_of_quiet {es : List Exchange}
    (h : ∀ e ∈ es, e.request = .flush ∨ ∃ record, e.request = .note record) : prints es = [] := by
  refine List.filterMap_eq_nil_iff.mpr fun ⟨r, answer⟩ he => ?_
  rcases h _ he with rfl | ⟨record, rfl⟩ <;> rfl

/-- A line ends with its last segment that is not blank. -/
theorem invocations_of_last {line segment : Text} {before after : List Text}
    (hsegments : Line.segments line = before ++ segment :: after)
    (hafter : ∀ later ∈ after, later.IsBlank) {entry : Except Failure Invocation}
    (hentry : Line.entry? segment = some entry) :
    Line.invocations line = before.filterMap Line.entry? ++ [entry] := by
  have hblank : after.filterMap Line.entry? = [] :=
    List.filterMap_eq_nil_iff.mpr fun later hlater =>
      (Line.entry?_eq_none_iff later).mpr (hafter later hlater)
  rw [Line.invocations, hsegments, List.filterMap_append, List.filterMap_cons_some hentry, hblank]

/-- A line that ends with a segment ends as that segment does. -/
theorem execute_of_last {line : Text} {entries : List (Except Failure Invocation)}
    {entry : Except Failure Invocation} (hline : Line.invocations line = entries ++ [entry])
    (dir : Path) (s : Scene φ κ) :
    let earlier := (runEntries Builtin.table entries 0 dir).run w s
    let last := (runEntry Builtin.table entry earlier.value.2).run w earlier.scene
    ((execute Builtin.table line dir).run w s).value = last.value ∧
      prints ((execute Builtin.table line dir).run w s).exchanges =
        prints earlier.exchanges ++ prints last.exchanges := by
  intro earlier last
  simp only [execute_eq, hline, runEntries_append, runEntries_singleton, run_bind, run_done,
    prints_append, prints_eq_nil_of_quiet (quiet_flush w _)]
  refine ⟨rfl, ?_⟩
  rw [List.append_assoc]
  exact congrArg (prints earlier.exchanges ++ ·) (List.append_nil _)

/-- Exit codes and error lines, on any file system and any console.

A line has the code 0 or 1. It ends as its last segment that is not blank
does, and has the code 1 exactly if that segment has written an error line.
A line of blank segments has the code 0 and only flushes the console.

A segment writes what its command says, what its command was asked to show,
and what the shell says. It fails if it is no invocation or names no
command. If it fails, the shell says so in one line; if it succeeds, the
shell says nothing, and its command has said no error line and has the code
0, or is a `cat` that has reported something and has the code 1. Only a
`cat` says error lines itself, and each of them shows a failure. -/
theorem codes_and_error_lines (line : Text) (dir : Path) (s : Scene φ κ) :
    let whole := (execute Builtin.table line dir).run w s
    (whole.value.1 = 0 ∨ whole.value.1 = 1) ∧
    (∀ before segment after, Line.segments line = before ++ segment :: after →
      ¬ segment.IsBlank → (∀ later ∈ after, later.IsBlank) →
      ∃ entry, Line.entry? segment = some entry ∧
        let earlier := (runEntries Builtin.table (before.filterMap Line.entry?) 0 dir).run w s
        let last := (runEntry Builtin.table entry earlier.value.2).run w earlier.scene
        whole.value = last.value ∧
          prints whole.exchanges = prints earlier.exchanges ++ prints last.exchanges ∧
          (whole.value.1 = 1 ↔ errorLines w entry earlier.value.2 earlier.scene ≠ [])) ∧
    ((∀ segment ∈ Line.segments line, segment.IsBlank) →
      whole.value.1 = 0 ∧
        ∀ e ∈ whole.exchanges, e.request = .flush ∨ ∃ record, e.request = .note record) ∧
    ∀ (entry : Except Failure Invocation) (dir : Path) (s : Scene φ κ),
      let told := spoken w entry dir s
      let result := result w entry dir s
      prints ((runEntry Builtin.table entry dir).run w s).exchanges =
          told.lines ++ told.output ++ shellLines w entry dir s ∧
        (∀ f, entry = .error f → result = .error f) ∧
        (∀ i, entry = .ok i → Builtin.table.find? i.name = none →
          result = .error (.unknownCommand i.name)) ∧
        (∀ f, result = .error f → shellLines w entry dir s = [f.line.bytes]) ∧
        (∀ code, result = .ok code → shellLines w entry dir s = [] ∧
          ((code = 0 ∧ told.lines.filter isErrorLine = []) ∨
            (code = 1 ∧ told.lines.filter isErrorLine ≠ []))) ∧
        (told.lines.filter isErrorLine ≠ [] →
          ∃ i, entry = .ok i ∧ i.name = Builtin.Name.cat.text) ∧
        ∃ reports : List Failure, told.lines.filter isErrorLine = reports.map (·.line.bytes) := by
  intro whole
  refine ⟨?_, fun before segment after hsegments hblank hafter => ?_, fun hblank => ?_,
    fun entry dir s => ?_⟩
  · have hcode : ∀ entry dir (s : Scene φ κ),
        ((runEntry Builtin.table entry dir).run w s).value.1 = 0 ∨
          ((runEntry Builtin.table entry dir).run w s).value.1 = 1 := by
      intro entry dir s
      rw [code_runEntry]
      split
      · exact .inl rfl
      · exact .inr rfl
    rcases List.eq_nil_or_concat (Line.invocations line) with hnil | ⟨entries, entry, hline⟩
    · left
      simp only [whole, value_execute, hnil]
      rfl
    · rw [List.concat_eq_append] at hline
      simp only [whole, (execute_of_last w hline dir s).1]
      exact hcode _ _ _
  · cases hentry : Line.entry? segment with
    | none => exact absurd ((Line.entry?_eq_none_iff segment).mp hentry) hblank
    | some entry =>
      obtain ⟨hvalue, hprints⟩ := execute_of_last w
        (invocations_of_last hsegments hafter hentry) dir s
      refine ⟨entry, rfl, hvalue, hprints, ?_⟩
      rw [hvalue, code_runEntry]
      split <;> simp_all
  · have hnil : Line.invocations line = [] := (Line.invocations_eq_nil_iff line).mpr hblank
    have hflush : whole.exchanges = (flush.run w s).exchanges := by
      simp only [whole, execute_eq, hnil, runEntries, run_bind, pure_eq_done, run_done,
        List.nil_append, List.append_nil]
    refine ⟨?_, hflush ▸ quiet_flush w s⟩
    simp only [whole, value_execute, hnil]
    rfl
  · obtain ⟨hfailed, hdone⟩ := shellLines_of_result w entry dir s
    obtain ⟨hreports, hcat, hcode⟩ := spoken_errors w entry dir s
    refine ⟨prints_runEntry w entry dir s, ?_, ?_, hfailed,
      fun code hok => ⟨hdone code hok, hcode code hok⟩, hcat, hreports⟩
    · rintro f rfl
      rfl
    · rintro i rfl hfind
      rw [result, unsettled, run, hfind]
      rfl

/-- The report of a missing file, on a console that takes nothing: no line
is seen, and the code is 1 all the same. -/
theorem codes_and_error_lines_unseen :
    let w := Host.world Host.fileSystem Console.screen
    let s : Scene Host Console.Screen := ⟨⟨.directory 0 [], .inTree []⟩, { room := some 0 }⟩
    let whole := (execute Builtin.table "pwd|cat m| ".toList Path.root).run w s
    whole.value.1 = 1 ∧ whole.scene.console.shown = [] := by
  intro w s whole
  obtain ⟨_, hlast, _⟩ := codes_and_error_lines w "pwd|cat m| ".toList Path.root s
  have hblank : ¬ Text.IsBlank "cat m".toList := fun h => absurd (h 'c' (by decide)) (by decide)
  have hafter : ∀ later ∈ [[' ']], Text.IsBlank later := by
    simp only [List.mem_singleton, forall_eq]
    intro c hc
    obtain rfl := List.mem_singleton.mp hc
    decide
  obtain ⟨entry, hentry, -, -, hcode⟩ := hlast ["pwd".toList] "cat m".toList [[' ']] (by decide)
    hblank hafter
  obtain rfl : .ok ⟨Builtin.Name.cat.text, [['m']], none⟩ = entry :=
    Option.some.inj ((by decide : Line.entry? "cat m".toList = _).symm.trans hentry)
  exact ⟨hcode.mpr (by decide), by decide⟩

/-- What a command is asked to show may read like an error line. -/
example :
    let w := Host.world Host.fileSystem Console.screen
    let s : Scene Host Console.Screen := ⟨⟨.directory 0 [], .inTree []⟩, {}⟩
    let told := spoken w (.ok ⟨Builtin.Name.echo.text, ["Error:".toList, ['x']], none⟩) Path.root s
    told.lines = [] ∧ told.output.map isErrorLine = [true] := by
  decide

end Shell

end FileShell

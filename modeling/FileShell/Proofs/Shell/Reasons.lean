/-
FileShell.Proofs.Shell.Reasons — what a failure says is so.

A failure that describes the state of the files (`Failure.isDescriptive`)
is found out by asking: the last answer is what it says, and the files are
still as they were when it was given. `BearsOut` says of each command and
each failure what has to be the case.

`mkdir` and `touch` do not ask first. They pass on two causes of a refusal
by a name of their own, and one of the names says too much: that a name is
taken is all that is known, not by what (`Host.Taken`). So `mkdir` calls a
file an existing directory and `touch` a directory an existing file
(`taken_by_the_other_kind`).

`cat` does not fail for a file that is missing; it reports it and goes on.
What it reports is so as well (`ReadsTruly`).
-/
import FileShell.Proofs.Builtin.Gathering
import FileShell.Proofs.Host.Refusing
import FileShell.Proofs.Shell.OnHost

namespace FileShell

/-- Whether a failure says how the files are, in the shell's own words. -/
def Failure.isDescriptive : Failure → Bool
  | .usage _ | .unknownCommand _ | .missingRedirectTarget _ | .io _ _ | .console _ => false
  | _ => true

variable {κ : Type} {con : Console κ} {s : Scene Host κ} {dir : Path} {f : Failure}

namespace Builtin

open Program Host

/-! ## What the failures say -/

/-- What has to be the case for a command to fail as it does. Other
descriptive failures do not come from it. -/
def BearsOut (h : Host) (dir : Path) : Builtin → Failure → Prop
  | .rmdir arg, .notFound t | .rm arg, .notFound t => t = arg ∧ h.exists? (dir.resolve arg) = false
  | .mv source _, .sourceNotFound t => t = source ∧ h.exists? (dir.resolve source) = false
  | .rmdir arg, .notADirectory t =>
    t = arg ∧ h.exists? (dir.resolve arg) = true ∧ h.isDirectory (dir.resolve arg) = false
  | .rm arg, .isADirectory t => t = arg ∧ h.isDirectory (dir.resolve arg) = true
  | .rmdir arg, .directoryNotEmpty t =>
    t = arg ∧ h.isDirectory (dir.resolve arg) = true ∧
      ∃ name names, h.entries (dir.resolve arg) = .ok (name :: names)
  | .ls l, .invalidDirectory t => t = l.label dir ∧ h.isDirectory (l.place dir) = false
  | .cd arg, .noSuchDirectory t =>
    t = arg ∧ ∃ place, cdTarget arg dir = .ok place ∧ h.isDirectory place = false
  | .cd arg, .noParentDirectory t => t = dir.text ∧ arg = ['.', '.'] ∧ dir.parent? = none
  | .mkdir arg, .missingParent t | .touch arg, .missingParent t =>
    t = arg ∧ h.LacksParent (dir.resolve arg)
  | .mkdir arg, .directoryExists t | .touch arg, .fileExists t =>
    t = arg ∧ h.Taken (dir.resolve arg)
  | _, _ => False

/-- Where it fails with a descriptive failure, the reason is so, and the
files are as they were. -/
def FailsTruly (con : Console κ) (s : Scene Host κ) (b : Builtin) (dir : Path)
    (p : Program (Except Failure Success)) : Prop :=
  ∀ f, f.isDescriptive = true → (p.run (world fileSystem con) s).value = .error f →
    BearsOut s.files dir b f ∧ (p.run (world fileSystem con) s).scene.files = s.files

/-- However it is answered, it fails with no descriptive failure. -/
def FailsPlainly {α : Type} (p : Program (Except Failure α)) : Prop :=
  p.Keeps (fun _ => True) fun r => ∀ f, r = .error f → f.isDescriptive = false

section

variable {b : Builtin} {p : Program (Except Failure Success)}

theorem FailsPlainly.of_run {α κ : Type} {p : Program (Except Failure α)} (hp : FailsPlainly p)
    {w : World Host κ} {s : Scene Host κ} (hf : (p.run w s).value = .error f) :
    f.isDescriptive = false :=
  (keeps_run w hp s).2 f hf

theorem FailsPlainly.failsTruly (hp : FailsPlainly p) : FailsTruly con s b dir p := by
  intro f hf h
  rw [hp.of_run h] at hf
  cases hf

theorem failsPlainly_error {α : Type} (hf : f.isDescriptive = false) :
    FailsPlainly (.done (.error f) : Program (Except Failure α)) := by
  rintro g ⟨⟩
  exact hf

theorem failsPlainly_announce (t : Text) (q : Success) : FailsPlainly (announce t q) := by
  intro answer
  refine ⟨trivial, ?_⟩
  cases answer with
  | ok u => nofun
  | error e => exact failsPlainly_error rfl

theorem failsTruly_error (h : BearsOut s.files dir b f) :
    FailsTruly con s b dir (.done (.error f)) := by
  rintro g - ⟨⟩
  exact ⟨h, rfl⟩

/-- A call to the machine: what follows fails plainly, or the call has
changed nothing and what follows fails truly. -/
theorem failsTruly_call {call : Files.Call}
    {next : call.Answer → Program (Except Failure Success)}
    (h : ∀ a h', Host.answer call s.files = (a, h') →
      FailsPlainly (next a) ∨ (h' = s.files ∧ FailsTruly con s b dir (next a))) :
    FailsTruly con s b dir (.ask (.files call) next) := by
  intro f hf hv
  rw [run_ask, answer_files] at hv ⊢
  rcases hcall : Host.answer call s.files with ⟨a, h'⟩
  rw [hcall] at hv
  rcases h a h' hcall with hplain | ⟨rfl, htruly⟩
  · rw [hplain.of_run hv] at hf
    cases hf
  · exact htruly f hf hv

/-- A question changes nothing. -/
theorem failsTruly_question {call : Files.Call} (hc : call.isQuestion = true)
    {next : call.Answer → Program (Except Failure Success)}
    (h : ∀ a, (Host.answer call s.files).1 = a → FailsTruly con s b dir (next a)) :
    FailsTruly con s b dir (.ask (.files call) next) :=
  failsTruly_call fun a _ hcall => .inr
    ⟨(congrArg Prod.snd hcall).symm.trans (questionsPass_fileSystem call hc s.files),
      h a (congrArg Prod.fst hcall)⟩

end

/-! ## The commands -/

section

variable (con s dir)

theorem failsTruly_runLs (l : Listing) :
    FailsTruly con s (.ls l) dir (runLs l dir).run := by
  rw [run_runLs]
  refine failsTruly_question rfl fun isDirectory hdirectory => ?_
  cases isDirectory with
  | false => exact failsTruly_error ⟨rfl, hdirectory⟩
  | true =>
    refine failsTruly_question rfl fun names _ => FailsPlainly.failsTruly ?_
    cases names with
    | ok names => nofun
    | error e => exact failsPlainly_error rfl

theorem failsTruly_runCd (target : Text) :
    FailsTruly con s (.cd target) dir (runCd target dir).run := by
  rw [run_runCd]
  cases hplace : cdTarget target dir with
  | error g =>
    rw [cdTarget] at hplace
    split at hplace
    · next htarget =>
      cases hup : dir.parent? with
      | none =>
        rw [hup] at hplace
        cases hplace
        exact failsTruly_error ⟨rfl, htarget, hup⟩
      | some up =>
        rw [hup] at hplace
        cases hplace
    · cases hplace
  | ok place =>
    refine failsTruly_question rfl fun isDirectory hdirectory => ?_
    cases isDirectory with
    | false => exact failsTruly_error ⟨rfl, place, hplace, hdirectory⟩
    | true => exact FailsPlainly.failsTruly fun _ => ⟨trivial, failsPlainly_announce _ _⟩

theorem failsTruly_runMkdir (arg : Text) :
    FailsTruly con s (.mkdir arg) dir (runMkdir arg dir).run := by
  rw [run_runMkdir]
  refine failsTruly_call fun r h' hmake => ?_
  cases r with
  | ok u => exact .inl (failsPlainly_announce _ _)
  | error e =>
    rw [answer, createDirectory, createDirectory?_eq] at hmake
    obtain ⟨hsame, htaken, hmissing⟩ := of_refused hmake
    refine .inr ⟨hsame, ?_⟩
    dsimp only
    unfold mkdirFailure
    split
    · next hkind => exact failsTruly_error ⟨rfl, htaken hkind⟩
    · next hkind => exact failsTruly_error ⟨rfl, hmissing hkind⟩
    · exact (failsPlainly_error rfl).failsTruly

theorem failsTruly_runTouch (arg : Text) :
    FailsTruly con s (.touch arg) dir (runTouch arg dir).run := by
  rw [run_runTouch]
  refine failsTruly_call fun r h' hmake => ?_
  cases r with
  | ok u => exact .inl (failsPlainly_announce _ _)
  | error e =>
    rw [answer, createFile, createFile?_eq (by exact getLast?_steps_normal _)] at hmake
    obtain ⟨hsame, htaken, hmissing⟩ := of_refused hmake
    refine .inr ⟨hsame, ?_⟩
    dsimp only
    unfold touchFailure
    split
    · next hkind => exact failsTruly_error ⟨rfl, htaken hkind⟩
    · next hkind => exact failsTruly_error ⟨rfl, hmissing hkind⟩
    · exact (failsPlainly_error rfl).failsTruly

theorem failsTruly_runRmdir (arg : Text) :
    FailsTruly con s (.rmdir arg) dir (runRmdir arg dir).run := by
  rw [run_runRmdir]
  refine failsTruly_question rfl fun found hexists => ?_
  cases found with
  | false => exact failsTruly_error ⟨rfl, hexists⟩
  | true =>
    refine failsTruly_question rfl fun isDirectory hdirectory => ?_
    cases isDirectory with
    | false => exact failsTruly_error ⟨rfl, hexists, hdirectory⟩
    | true =>
      refine failsTruly_question rfl fun names hentries => ?_
      match names, hentries with
      | .error e, _ => exact (failsPlainly_error rfl).failsTruly
      | .ok (name :: rest), hentries =>
        exact failsTruly_error ⟨rfl, hdirectory, name, rest, hentries⟩
      | .ok [], _ =>
        refine FailsPlainly.failsTruly fun answer => ⟨trivial, ?_⟩
        cases answer with
        | ok u => exact failsPlainly_announce _ _
        | error e => exact failsPlainly_error rfl

theorem failsTruly_runRm (arg : Text) : FailsTruly con s (.rm arg) dir (runRm arg dir).run := by
  rw [run_runRm]
  refine failsTruly_question rfl fun found hexists => ?_
  cases found with
  | false => exact failsTruly_error ⟨rfl, hexists⟩
  | true =>
    refine failsTruly_question rfl fun isDirectory hdirectory => ?_
    cases isDirectory with
    | true => exact failsTruly_error ⟨rfl, hdirectory⟩
    | false =>
      refine FailsPlainly.failsTruly fun answer => ⟨trivial, ?_⟩
      cases answer with
      | ok u => exact failsPlainly_announce _ _
      | error e => exact failsPlainly_error rfl

theorem failsTruly_runMv (source destination : Text) :
    FailsTruly con s (.mv source destination) dir (runMv source destination dir).run := by
  rw [run_runMv]
  refine failsTruly_question rfl fun found hexists => ?_
  cases found with
  | false => exact failsTruly_error ⟨rfl, hexists⟩
  | true =>
    refine FailsPlainly.failsTruly fun isDirectory => ⟨trivial, fun answer => ⟨trivial, ?_⟩⟩
    cases answer with
    | ok u => exact failsPlainly_announce _ _
    | error e => exact failsPlainly_error rfl

end

/-! ## Reading files -/

theorem failsPlainly_complain (g : Failure) (text : Text) : FailsPlainly (complain g text) := by
  intro answer
  refine ⟨trivial, ?_⟩
  cases answer with
  | ok u => nofun
  | error e => exact failsPlainly_error rfl

theorem failsPlainly_readOn (left : Nat) (reader : Files.Reader) (latest : List Text) :
    FailsPlainly (readOn left reader latest).run := by
  induction left generalizing reader latest with
  | zero => nofun
  | succ left ih =>
    rw [run_readOn_succ]
    refine fun item => ⟨trivial, ?_⟩
    match item with
    | none => nofun
    | some (.error e, _) => exact failsPlainly_complain _ _
    | some (.ok line, reader) => exact ih reader (line :: latest)

theorem failsPlainly_readFile (dir : Path) (name : Text) :
    FailsPlainly (readFile dir name).run := by
  rw [run_readFile]
  intro found
  refine ⟨trivial, ?_⟩
  cases found with
  | false => exact failsPlainly_complain _ _
  | true =>
    refine fun opened => ⟨trivial, ?_⟩
    cases opened with
    | error e => exact failsPlainly_complain _ _
    | ok reader => exact failsPlainly_readOn _ _ _

theorem FailsPlainly.bind {α β : Type} {x : Attempt α} {g : α → Attempt β}
    (hx : FailsPlainly x.run) (hg : ∀ a, FailsPlainly (g a).run) : FailsPlainly (x >>= g).run := by
  refine (keeps_attempt_bind x g _).mpr (hx.imp fun r hr => ?_)
  cases r with
  | ok a => exact hg a
  | error e =>
    rintro _ ⟨⟩
    exact hr e rfl

theorem failsPlainly_readFiles (dir : Path) (names : List Text) :
    FailsPlainly (readFiles dir names).run := by
  induction names with
  | nil => nofun
  | cons name names ih =>
    exact (failsPlainly_readFile dir name).bind fun _ => ih.bind fun _ => nofun

theorem failsTruly_perform (con : Console κ) (s : Scene Host κ) (dir : Path) (b : Builtin) :
    FailsTruly con s b dir (b.perform dir).run := by
  cases b with
  | echo message => exact fun _ _ => nofun
  | ls listing => exact failsTruly_runLs con s dir listing
  | cat files =>
    have hcat : FailsPlainly (runCat files dir).run :=
      (failsPlainly_readFiles dir files).bind fun ⟨_, _⟩ => nofun
    exact hcat.failsTruly
  | pwd =>
    rw [perform, run_runPwd]
    exact (failsPlainly_announce _ _).failsTruly
  | cd target => exact failsTruly_runCd con s dir target
  | mkdir arg => exact failsTruly_runMkdir con s dir arg
  | rmdir arg => exact failsTruly_runRmdir con s dir arg
  | rm arg => exact failsTruly_runRm con s dir arg
  | mv source destination => exact failsTruly_runMv con s dir source destination
  | touch arg => exact failsTruly_runTouch con s dir arg
  | help =>
    rw [perform, run_runHelp]
    exact (failsPlainly_announce _ _).failsTruly

/-! ## Reports -/

/-- What `cat` reports of some files: one that is not there, or one that
cannot be read. -/
def Reports (h : Host) (dir : Path) (names : List Text) (line : Bytes) : Prop :=
  (∃ t ∈ names, line = (Failure.fileNotFound t).line.bytes ∧
    h.exists? (dir.resolve t) = false) ∨
    ∃ e, line = (Failure.io "Error reading file".toList e).line.bytes

/-- On a machine, it prints true reports and nothing else, and changes nothing. -/
def ReportsTruly {α : Type} (con : Console κ) (h : Host) (dir : Path) (names : List Text)
    (p : Program α) : Prop :=
  ∀ k, (p.run (world fileSystem con) ⟨h, k⟩).scene.files = h ∧
    ∀ line ∈ prints (p.run (world fileSystem con) ⟨h, k⟩).exchanges, Reports h dir names line

section

variable {h : Host} {name : Text} {names names' : List Text}

theorem reportsTruly_question {α : Type} {call : Files.Call} (hc : call.isQuestion = true)
    {next : call.Answer → Program α}
    (hnext : ∀ a, (Host.answer call h).1 = a → ReportsTruly con h dir names (next a)) :
    ReportsTruly con h dir names (.ask (.files call) next) := by
  intro k
  have hsame : (Host.answer call h).2 = h := questionsPass_fileSystem call hc h
  rw [run_ask, answer_files]
  rcases hcall : Host.answer call h with ⟨a, h'⟩
  rw [hcall] at hsame
  obtain rfl : h' = h := hsame
  exact hnext a (congrArg Prod.fst hcall) k

theorem reportsTruly_complain {g : Failure} (hg : Reports h dir names g.line.bytes) (text : Text) :
    ReportsTruly con h dir names (complain g text) := by
  intro k
  rw [complain, run_ask]
  cases ((world fileSystem con).answer (.print g.line.bytes) ⟨h, k⟩).1 <;>
    exact ⟨rfl, List.forall_mem_singleton.mpr hg⟩

theorem reportsTruly_readOn (left : Nat) (reader : Files.Reader) (latest : List Text) :
    ReportsTruly con h dir names (readOn left reader latest).run := by
  induction left generalizing reader latest with
  | zero => exact fun _ => ⟨rfl, nofun⟩
  | succ left ih =>
    rw [run_readOn_succ]
    refine reportsTruly_question rfl fun item _ => ?_
    match item with
    | none => exact fun _ => ⟨rfl, nofun⟩
    | some (.error e, _) => exact reportsTruly_complain (.inr ⟨e, rfl⟩) _
    | some (.ok line, reader) => exact ih reader (line :: latest)

theorem reportsTruly_readFile (hname : name ∈ names) :
    ReportsTruly con h dir names (readFile dir name).run := by
  rw [run_readFile]
  refine reportsTruly_question rfl fun found hexists => ?_
  cases found with
  | false => exact reportsTruly_complain (.inl ⟨name, hname, rfl, hexists⟩) _
  | true =>
    refine reportsTruly_question rfl fun opened _ => ?_
    cases opened with
    | error e => exact reportsTruly_complain (.inr ⟨e, rfl⟩) _
    | ok reader => exact reportsTruly_readOn _ _ _

theorem ReportsTruly.bind {α β : Type} {x : Attempt α} {g : α → Attempt β}
    (hx : ReportsTruly con h dir names x.run) (hg : ∀ a, ReportsTruly con h dir names (g a).run) :
    ReportsTruly con h dir names (x >>= g).run := by
  intro k
  obtain ⟨hfiles, hreports⟩ := hx k
  rw [ExceptT.run_bind, run_bind, prints_append, List.forall_mem_append]
  rcases hrun : x.run.run (world fileSystem con) ⟨h, k⟩ with ⟨value, ⟨h', k'⟩, es⟩
  rw [hrun] at hfiles hreports
  obtain rfl : h' = h := hfiles
  cases value with
  | ok a => exact ⟨(hg a k').1, hreports, (hg a k').2⟩
  | error e => exact ⟨rfl, hreports, nofun⟩

theorem reportsTruly_readFiles (hnames : ∀ name ∈ names', name ∈ names) :
    ReportsTruly con h dir names (readFiles dir names').run := by
  induction names' with
  | nil => exact fun _ => ⟨rfl, nofun⟩
  | cons name names' ih =>
    obtain ⟨hname, hrest⟩ := List.forall_mem_cons.mp hnames
    exact (reportsTruly_readFile hname).bind fun _ => (ih hrest).bind fun _ _ => ⟨rfl, nofun⟩

theorem reportsTruly_runCat (h : Host) (dir : Path) (names : List Text) :
    ReportsTruly con h dir names (runCat names dir).run :=
  (reportsTruly_readFiles fun _ hname => hname).bind fun _ _ => ⟨rfl, nofun⟩

end

/-! ## Arguments -/

/-- Arguments that cannot be read say nothing about the files. -/
theorem isDescriptive_of_ofArgs {n : Name} {args : List Text} (h : ofArgs n args = .error f) :
    f.isDescriptive = false := by
  cases n <;> rcases args with _ | ⟨a, _ | ⟨b, rest⟩⟩ <;> cases h <;> rfl

end Builtin

namespace Shell

open Program Builtin Host

variable {n : Builtin.Name} {args : List Text} {redirect : Option Redirect}

/-- A delivery fails plainly. -/
theorem finish_fails {w : World Host κ} {out : Outcome} {s : Scene Host κ} {code : ExitCode}
    (hout : out.result = .ok code) (h : ((finish redirect out).run w s).value.1 = .error f) :
    f.isDescriptive = false := by
  rcases result_finish w s redirect hout with hr | ⟨e, hr⟩ | ⟨t, e, hr⟩
  · cases hr.symm.trans h
  · cases hr.symm.trans h
    rfl
  · cases hr.symm.trans h
    rfl

/-- An invocation that fails descriptively does so by its command. -/
theorem own_failure (hf : f.isDescriptive = true)
    (h : (onHost con dir n args redirect s).value.1 = .error f) :
    ∃ b, ofArgs n args = .ok b ∧
      ((b.perform dir).run.run (world fileSystem con) s).value = .error f ∧
      (onHost con dir n args redirect s).scene =
        ((b.perform dir).run.run (world fileSystem con) s).scene := by
  have hown : (((command n args).run dir).run (world fileSystem con) s).value.result = .error f ∧
      (onHost con dir n args redirect s).scene =
        (((command n args).run dir).run (world fileSystem con) s).scene := by
    rw [onHost] at h ⊢
    cases hn : n.redirectable with
    | false =>
      rw [run_of_not_redirectable _ hn] at h ⊢
      exact ⟨h, rfl⟩
    | true =>
      rw [run_eq_bind hn, run_bind] at h ⊢
      cases hres : (((command n args).run dir).run (world fileSystem con) s).value.result with
      | ok code =>
        rw [finish_fails hres h] at hf
        cases hf
      | error g =>
        rw [finish_failed hres] at h ⊢
        cases h
        exact ⟨rfl, rfl⟩
  obtain ⟨hresult, hscene⟩ := hown
  cases hargs : ofArgs n args with
  | error g =>
    rw [run_command_error hargs] at hresult
    cases hresult
    rw [isDescriptive_of_ofArgs hargs] at hf
    cases hf
  | ok b =>
    rw [run_command_ok hargs, run_map] at hresult hscene
    refine ⟨b, rfl, ?_, hscene⟩
    cases hvalue : ((b.perform dir).run.run (world fileSystem con) s).value with
    | ok q =>
      rw [hvalue] at hresult
      cases hresult
    | error g =>
      rw [hvalue] at hresult
      cases hresult
      rfl

/-! ## Reasons -/

/-- The reasons that are reported are so, on any machine and with any
console. A built-in command that fails with a descriptive failure does so
on arguments it could read, what the failure says of the path is the case,
and the files are as they were; only that a name is taken is passed on
without saying by what. What `cat` reports, instead of failing, is the case
as well. -/
theorem reasons_are_true (con : Console κ) (s : Scene Host κ) (dir : Path) (n : Builtin.Name)
    (args : List Text) (redirect : Option Redirect) :
    (∀ f, f.isDescriptive = true → (onHost con dir n args redirect s).value.1 = .error f →
      ∃ b, ofArgs n args = .ok b ∧ BearsOut s.files dir b f ∧
        (onHost con dir n args redirect s).scene.files = s.files) ∧
    ∀ line ∈ prints (((command .cat args).run dir).run (world fileSystem con) s).exchanges,
      Reports s.files dir args line := by
  constructor
  · intro f hf h
    obtain ⟨b, hargs, hvalue, hscene⟩ := own_failure hf h
    obtain ⟨hreason, hsame⟩ := failsTruly_perform con s dir b f hf hvalue
    exact ⟨b, hargs, hreason, (congrArg Scene.files hscene).trans hsame⟩
  · cases args with
    | nil =>
      rw [run_command_error rfl]
      nofun
    | cons name names =>
      rw [run_command_ok rfl, run_map]
      exact (reportsTruly_runCat s.files dir (name :: names) s.console).2

/-- A directory that cannot be made, and the reason. -/
theorem reasons_are_true_of_missing_parent :
    let s : Scene Host Console.Screen := ⟨⟨.directory 0 [], .inTree []⟩, {}⟩
    (onHost Console.screen Path.root .mkdir ["x/y".toList] none s).value.1 =
        .error (.missingParent "x/y".toList) ∧
      s.files.LacksParent (Path.root.resolve "x/y".toList) := by
  intro s
  have hfails : (onHost Console.screen Path.root .mkdir ["x/y".toList] none s).value.1 =
      .error (.missingParent "x/y".toList) := by decide +kernel
  obtain ⟨hreasons, -⟩ := reasons_are_true Console.screen s Path.root .mkdir ["x/y".toList] none
  obtain ⟨b, hargs, hreason, -⟩ := hreasons _ rfl hfails
  cases hargs
  exact ⟨hfails, hreason.2⟩

/-- `mkdir` calls a file an existing directory, and `touch` a directory an
existing file. -/
theorem taken_by_the_other_kind :
    let s : Scene Host Console.Screen :=
      ⟨⟨.directory 0 [(['f'], .file []), (['d'], .directory 0 [])], .inTree []⟩, {}⟩
    (onHost Console.screen Path.root .mkdir [['f']] none s).value.1 =
        .error (.directoryExists ['f']) ∧
      s.files.isDirectory (Path.root.resolve ['f']) = false ∧
      (onHost Console.screen Path.root .touch [['d']] none s).value.1 =
        .error (.fileExists ['d']) ∧
      s.files.Names (Path.root.resolve ['d']) [['d']] ∧
      s.files.root.face? [['d']] = some (.directory 0) := by
  refine ⟨by decide +kernel, by decide +kernel, by decide +kernel, ?_, rfl⟩
  exact ⟨[], ['d'], rfl, by decide, rfl⟩

end Shell

end FileShell

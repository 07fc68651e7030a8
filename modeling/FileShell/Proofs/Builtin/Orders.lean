/-
FileShell.Proofs.Builtin.Orders — the one order that a command gives.

A call to the file system is a question or an order. Five commands give
orders. `Plan` has one line for each of them: the order, the questions
that come before it with the answers they must have had, and the line that
is said once the order is carried out. `Goes` says how such a command can
go: it gives up while it still asks, its order is refused, or the order is
carried out and the line is said, to a console that takes it or does not.
`goes_command` goes through the five commands once; what holds of every
one of the ways holds of them all.

The other six commands give no order (`keeps_command_quiet`).
-/
import FileShell.Proofs.Builtin.Requests
import FileShell.Proofs.Program.Runs

namespace FileShell

/-! ## Orders -/

namespace Exchange

/-- A call to the file system. -/
def isCall : Exchange → Bool
  | ⟨.files _, _⟩ => true
  | _ => false

/-- A call to the file system that may change something. -/
def isOrder : Exchange → Bool
  | ⟨.files c, _⟩ => !c.isQuestion
  | _ => false

/-- An order that was not refused. A write is under way once its target is
open, whatever happens to the content. -/
def carriedOut : Exchange → Bool
  | ⟨.files (.createDirectory _), .ok _⟩ => true
  | ⟨.files (.removeDirectory _), .ok _⟩ => true
  | ⟨.files (.removeFile _), .ok _⟩ => true
  | ⟨.files (.move _ _), .ok _⟩ => true
  | ⟨.files (.createFile _), .ok _⟩ => true
  | ⟨.files (.write _ _ _), .ok _⟩ => true
  | ⟨.files (.write _ _ _), .error (.writing _)⟩ => true
  | _ => false

theorem isOrder_of_carriedOut {e : Exchange} (h : e.carriedOut = true) : e.isOrder = true := by
  unfold carriedOut at h
  split at h <;> first | rfl | cases h

end Exchange

namespace Builtin

open Program

/-- The commands that change the files. -/
def Name.changes : Name → Bool
  | .mkdir | .rmdir | .rm | .mv | .touch => true
  | _ => false

/-- How many arguments a command needs. -/
def Name.least : Name → Nat
  | .ls | .pwd | .help => 0
  | .mv => 2
  | _ => 1

/-- What a command with its arguments orders, after which questions were
answered how, and what it says once that is done. -/
inductive Plan (dir : Path) :
    Name → List Text → List Exchange → Files.Call → Text → Prop where
  | mkdir (arg : Text) (rest : List Text) :
      Plan dir .mkdir (arg :: rest) [] (.createDirectory (dir.resolve arg))
        ("Directory created successfully: ".toList ++ (dir.resolve arg).text ++ ['\n'])
  | rmdir (arg : Text) (rest : List Text) :
      Plan dir .rmdir (arg :: rest)
        [⟨.files (.exists (dir.resolve arg)), true⟩,
         ⟨.files (.isDirectory (dir.resolve arg)), true⟩,
         ⟨.files (.entries (dir.resolve arg)), .ok []⟩]
        (.removeDirectory (dir.resolve arg))
        ("Directory removed successfully: ".toList ++ (dir.resolve arg).text ++ ['\n'])
  | rm (arg : Text) (rest : List Text) :
      Plan dir .rm (arg :: rest)
        [⟨.files (.exists (dir.resolve arg)), true⟩,
         ⟨.files (.isDirectory (dir.resolve arg)), false⟩]
        (.removeFile (dir.resolve arg))
        ("File deleted successfully: ".toList ++ arg ++ ['\n'])
  /-- Into a directory, under the source's last name. -/
  | mvInto (source destination : Text) (rest : List Text) {base : Text}
      (hbase : (dir.resolve source).fileName? = some base) :
      Plan dir .mv (source :: destination :: rest)
        [⟨.files (.exists (dir.resolve source)), true⟩,
         ⟨.files (.isDirectory (dir.resolve destination)), true⟩]
        (.move (dir.resolve source) ((dir.resolve destination).join ⟨base⟩))
        ("Moved/Renamed successfully: ".toList ++ source ++ " to ".toList
          ++ ((dir.resolve destination).join ⟨base⟩).text ++ ['\n'])
  /-- To the destination itself: it is no directory, or the source has no last name. -/
  | mvTo (source destination : Text) (rest : List Text) (isDirectory : Bool)
      (hplain : isDirectory = false ∨ (dir.resolve source).fileName? = none) :
      Plan dir .mv (source :: destination :: rest)
        [⟨.files (.exists (dir.resolve source)), true⟩,
         ⟨.files (.isDirectory (dir.resolve destination)), isDirectory⟩]
        (.move (dir.resolve source) (dir.resolve destination))
        ("Moved/Renamed successfully: ".toList ++ source ++ " to ".toList
          ++ (dir.resolve destination).text ++ ['\n'])
  | touch (arg : Text) (rest : List Text) :
      Plan dir .touch (arg :: rest) [] (.createFile (dir.resolve arg))
        ("File created: ".toList ++ arg ++ ['\n'])

/-- How a command with plans can go. -/
inductive Goes (dir : Path) (plan : List Exchange → Files.Call → Text → Prop) :
    List Exchange → Except Failure Success → Prop where
  /-- It gives up with questions only. -/
  | gaveUp {es : List Exchange} (hquiet : ∀ e ∈ es, e.isOrder = false) (f : Failure) :
      Goes dir plan es (.error f)
  /-- Its order is refused. -/
  | refused {checks : List Exchange} {call : Files.Call} {line : Text}
      (hplan : plan checks call line) {answer : call.Answer}
      (hanswer : Exchange.carriedOut ⟨.files call, answer⟩ = false) (f : Failure) :
      Goes dir plan (checks ++ [⟨.files call, answer⟩]) (.error f)
  /-- Its order is carried out, but the console does not take the line. -/
  | unsaid {checks : List Exchange} {call : Files.Call} {line : Text}
      (hplan : plan checks call line) {answer : call.Answer}
      (hanswer : Exchange.carriedOut ⟨.files call, answer⟩ = true) (c : IoError) :
      Goes dir plan (checks ++ [⟨.files call, answer⟩, ⟨.print line.bytes, .error c⟩])
        (.error (.console c))
  /-- Its order is carried out and its line is said. -/
  | said {checks : List Exchange} {call : Files.Call} {line : Text}
      (hplan : plan checks call line) {answer : call.Answer}
      (hanswer : Exchange.carriedOut ⟨.files call, answer⟩ = true) :
      Goes dir plan (checks ++ [⟨.files call, answer⟩, ⟨.print line.bytes, .ok ()⟩])
        (.ok (.quiet dir))

variable {dir : Path} {es : List Exchange} {r : Except Failure Success}

theorem Goes.asked {plan : List Exchange → Files.Call → Text → Prop}
    (h : es.any Exchange.isOrder = false) (f : Failure) : Goes dir plan es (.error f) :=
  .gaveUp (by simpa [List.any_eq_false] using h) f

section

variable {n : Name} {args : List Text} {checks : List Exchange} {call : Files.Call} {line : Text}

theorem Plan.changes (h : Plan dir n args checks call line) : n.changes = true := by
  cases h <;> rfl

/-- What is planned is an order. -/
theorem Plan.isQuestion_eq_false (h : Plan dir n args checks call line) :
    call.isQuestion = false := by
  cases h <;> rfl

/-- The checks of a plan are calls. -/
theorem Plan.filter_isCall (h : Plan dir n args checks call line) :
    checks.filter Exchange.isCall = checks := by
  cases h <;> rfl

/-- The checks of a plan are questions. -/
theorem Plan.isOrder_of_mem (h : Plan dir n args checks call line) :
    ∀ e ∈ checks, e.isOrder = false := by
  have hany : checks.any Exchange.isOrder = false := by cases h <;> rfl
  simpa [List.any_eq_false] using hany

/-- What is planned has all its arguments. -/
theorem Plan.least_le (h : Plan dir n args checks call line) : n.least ≤ args.length := by
  cases h <;> simp [Name.least]

end

/-! ## Reading the arguments -/

theorem run_command_ok {n : Name} {args : List Text} {b : Builtin} (h : ofArgs n args = .ok b) :
    (command n args).run dir = outcome dir <$> (b.perform dir).run := by
  rw [command, h]
  rfl

theorem run_command_error {n : Name} {args : List Text} {f : Failure}
    (h : ofArgs n args = .error f) :
    (command n args).run dir = .done ⟨.error f, [], dir⟩ := by
  rw [command, h]
  rfl

/-! ## The five commands -/

/-- The last two steps of every plan. -/
theorem goes_order {plan : List Exchange → Files.Call → Text → Prop} {checks : List Exchange}
    {call : Files.Call} {line : Text} (hplan : plan checks call line)
    {next : call.Answer → Program (Except Failure Success)}
    (hnext : ∀ answer : call.Answer,
      (Exchange.carriedOut ⟨.files call, answer⟩ = false ∧ ∃ f, next answer = .done (.error f)) ∨
      (Exchange.carriedOut ⟨.files call, answer⟩ = true ∧ next answer = announce line (.quiet dir)))
    (h : (Program.ask (.files call) next).Runs es r) : Goes dir plan (checks ++ es) r := by
  cases h with
  | ask _ answer h =>
    rcases hnext answer with ⟨hanswer, f, hf⟩ | ⟨hanswer, hline⟩
    · rw [hf] at h
      cases h
      exact .refused hplan hanswer f
    · rw [hline] at h
      cases h with
      | ask _ taken h =>
        cases h
        cases taken with
        | error c => exact .unsaid hplan hanswer c
        | ok _ => exact .said hplan hanswer

theorem goes_runMkdir (arg : Text) (rest : List Text) (h : (runMkdir arg dir).run.Runs es r) :
    Goes dir (Plan dir .mkdir (arg :: rest)) es r := by
  rw [run_runMkdir] at h
  refine goes_order (Plan.mkdir arg rest) (fun made => ?_) h
  cases made with
  | error e => exact .inl ⟨rfl, _, rfl⟩
  | ok _ => exact .inr ⟨rfl, rfl⟩

theorem goes_runTouch (arg : Text) (rest : List Text) (h : (runTouch arg dir).run.Runs es r) :
    Goes dir (Plan dir .touch (arg :: rest)) es r := by
  rw [run_runTouch] at h
  refine goes_order (Plan.touch arg rest) (fun made => ?_) h
  cases made with
  | error e => exact .inl ⟨rfl, _, rfl⟩
  | ok _ => exact .inr ⟨rfl, rfl⟩

theorem goes_runRmdir (arg : Text) (rest : List Text) (h : (runRmdir arg dir).run.Runs es r) :
    Goes dir (Plan dir .rmdir (arg :: rest)) es r := by
  rw [run_runRmdir] at h
  cases h with
  | ask _ found h =>
  cases found with
  | false =>
    cases h
    exact .asked rfl _
  | true =>
    cases h with
    | ask _ isDirectory h =>
    cases isDirectory with
    | false =>
      cases h
      exact .asked rfl _
    | true =>
      cases h with
      | ask _ names h =>
      match names, h with
      | .error e, h =>
        cases h
        exact .asked rfl _
      | .ok (_ :: _), h =>
        cases h
        exact .asked rfl _
      | .ok [], h =>
        refine goes_order (Plan.rmdir arg rest) (fun removed => ?_) h
        cases removed with
        | error e => exact .inl ⟨rfl, _, rfl⟩
        | ok _ => exact .inr ⟨rfl, rfl⟩

theorem goes_runRm (arg : Text) (rest : List Text) (h : (runRm arg dir).run.Runs es r) :
    Goes dir (Plan dir .rm (arg :: rest)) es r := by
  rw [run_runRm] at h
  cases h with
  | ask _ found h =>
  cases found with
  | false =>
    cases h
    exact .asked rfl _
  | true =>
    cases h with
    | ask _ isDirectory h =>
    cases isDirectory with
    | true =>
      cases h
      exact .asked rfl _
    | false =>
      refine goes_order (Plan.rm arg rest) (fun removed => ?_) h
      cases removed with
      | error e => exact .inl ⟨rfl, _, rfl⟩
      | ok _ => exact .inr ⟨rfl, rfl⟩

/-- Where a move goes follows from what the destination is. -/
theorem plan_mv (source destination : Text) (rest : List Text) (isDirectory : Bool) :
    let target := moveTarget (dir.resolve source) (dir.resolve destination) isDirectory
    Plan dir .mv (source :: destination :: rest)
      [⟨.files (.exists (dir.resolve source)), true⟩,
       ⟨.files (.isDirectory (dir.resolve destination)), isDirectory⟩]
      (.move (dir.resolve source) target)
      ("Moved/Renamed successfully: ".toList ++ source ++ " to ".toList ++ target.text
        ++ ['\n']) := by
  cases isDirectory with
  | false => exact .mvTo source destination rest false (.inl rfl)
  | true =>
    cases hbase : (dir.resolve source).fileName? with
    | none =>
      simp only [moveTarget, hbase]
      exact .mvTo source destination rest true (.inr hbase)
    | some base =>
      simp only [moveTarget, hbase]
      exact .mvInto source destination rest hbase

theorem goes_runMv (source destination : Text) (rest : List Text)
    (h : (runMv source destination dir).run.Runs es r) :
    Goes dir (Plan dir .mv (source :: destination :: rest)) es r := by
  rw [run_runMv] at h
  cases h with
  | ask _ found h =>
  cases found with
  | false =>
    cases h
    exact .asked rfl _
  | true =>
    cases h with
    | ask _ isDirectory h =>
    refine goes_order (plan_mv source destination rest isDirectory) (fun moved => ?_) h
    cases moved with
    | error e => exact .inl ⟨rfl, _, rfl⟩
    | ok _ => exact .inr ⟨rfl, rfl⟩

/-- A command that changes the files goes one of these ways. -/
theorem goes_command {n : Name} (hn : n.changes = true) (args : List Text) {out : Outcome}
    (h : ((command n args).run dir).Runs es out) :
    ∃ r, Goes dir (Plan dir n args) es r ∧ out = outcome dir r := by
  cases hargs : ofArgs n args with
  | error f =>
    rw [run_command_error hargs] at h
    cases h
    exact ⟨.error f, .asked rfl f, rfl⟩
  | ok b =>
    rw [run_command_ok hargs] at h
    obtain ⟨r, hr, rfl⟩ := runs_map_iff.mp h
    refine ⟨r, ?_, rfl⟩
    cases n with
    | mkdir => match args, hargs with | arg :: rest, rfl => exact goes_runMkdir arg rest hr
    | rmdir => match args, hargs with | arg :: rest, rfl => exact goes_runRmdir arg rest hr
    | rm => match args, hargs with | arg :: rest, rfl => exact goes_runRm arg rest hr
    | mv => match args, hargs with | a :: b :: rest, rfl => exact goes_runMv a b rest hr
    | touch => match args, hargs with | arg :: rest, rfl => exact goes_runTouch arg rest hr
    | _ => cases hn

/-! ## The other six -/

theorem Requests.isOrder {b : Builtin} (hb : b.name.changes = false) {r : Request}
    (h : Requests dir b r) (answer : r.Answer) : Exchange.isOrder ⟨r, answer⟩ = false := by
  cases h <;> first | rfl | cases hb

/-- A command that does not change the files gives no order. -/
theorem keeps_command_quiet {n : Name} (hn : n.changes = false) (args : List Text) :
    ((command n args).run dir).Keeps (fun e => e.isOrder = false) fun _ => True :=
  keeps_command_of (fun _ e hb he => he.isOrder (hb ▸ hn) e.answer) (fun _ _ _ _ => trivial)
    (fun _ => trivial) args

/-! ## Too few arguments -/

/-- A command that lacks arguments asks for nothing and says how it is used. -/
theorem run_command_of_lt {n : Name} {args : List Text} (h : args.length < n.least) (dir : Path) :
    ∃ line, (command n args).run dir = .done ⟨.error (.usage line), [], dir⟩ := by
  have hargs : ∃ line, ofArgs n args = .error (.usage line) := by
    cases n <;> rcases args with _ | ⟨_, _ | ⟨_, _⟩⟩ <;>
      first | exact ⟨_, rfl⟩ | (simp only [Name.least, List.length] at h; omega)
  obtain ⟨line, hline⟩ := hargs
  exact ⟨line, run_command_error hline⟩

end Builtin

end FileShell

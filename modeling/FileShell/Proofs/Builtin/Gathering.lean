/-
FileShell.Proofs.Builtin.Gathering — what `cat` makes of a row of files,
whatever it is told about them.

A `Reading` is all that `cat` can be told of one file: that there is none,
that it cannot be opened, or its `Items`, one after another up to the end or
to one that fails. What happens with the file follows from that: what is
asked (`Reading.calls`), which lines are kept (`Reading.lines`) and what is
reported (`Reading.report?`).

So much is proved of one file (`runs_readFile_iff`) and carried over the
row by induction (`runs_readFiles_iff`): `cat` succeeds on a row of
readings exactly with what `gathered` makes of them. It fails only where a
report is refused (`isOk_of_runs_readFiles`), so never on a console that
takes everything.

Behind an item that fails nothing more is asked of the file. That holds on
every way `cat` can go, also where it fails itself, so it is said of the
exchanges: a reader is asked for an item only in its turn (`InTurn`), right
behind the opening or a good line.
-/
import FileShell.Proofs.Builtin.Concatenating
import FileShell.Proofs.Shell.Redirecting

namespace FileShell

namespace Builtin

open Program

/-! ## What is told of a file -/

/-- What comes of an open file, item by item, each with the reader that is
left behind it. -/
inductive Items where
  /-- As many items have been asked for as there can be. -/
  | spent
  /-- The file has ended, with so many more that could have been asked for. -/
  | ended (left : Nat)
  /-- An item fails, with so many more that could have been asked for. -/
  | failed (cause : IoError) (reader : Files.Reader) (left : Nat)
  /-- A good line, and what comes behind it. -/
  | line (text : Text) (reader : Files.Reader) (rest : Items)

namespace Items

/-- How many items there can be, as the opening has said. -/
def count : Items → Nat
  | .spent => 0
  | .ended left | .failed _ _ left => left + 1
  | .line _ _ rest => rest.count + 1

/-- What a reader is asked, and answered. -/
def calls : Files.Reader → Items → List Exchange
  | _, .spent => []
  | r, .ended _ => [⟨.files (.nextLine r), none⟩]
  | r, .failed e next _ => [⟨.files (.nextLine r), some (.error e, next)⟩]
  | r, .line text next rest => ⟨.files (.nextLine r), some (.ok text, next)⟩ :: rest.calls next

/-- The lines in front of the end, or of the item that fails. -/
def lines : Items → List Text
  | .spent | .ended _ | .failed _ _ _ => []
  | .line text _ rest => text :: rest.lines

/-- Why an item fails, if one does. -/
def cause? : Items → Option IoError
  | .spent | .ended _ => none
  | .failed e _ _ => some e
  | .line _ _ rest => rest.cause?

/-- What there is to report of an open file. -/
def report? (items : Items) : Option Failure := items.cause?.map (.io "Error reading file".toList)

/-- Nothing is printed while a file is read. -/
theorem prints_calls (items : Items) (r : Files.Reader) : prints (items.calls r) = [] := by
  induction items generalizing r with
  | line text next rest ih => exact ih next
  | _ => rfl

end Items

/-- What `cat` is told of one file. -/
inductive Reading where
  /-- There is no such file. -/
  | missing
  /-- The file cannot be opened. -/
  | unopened (cause : IoError)
  /-- The file is opened and read. -/
  | opened (unread : List Files.LineItem) (items : Items)

/-- What happens where there is a failure to report and the console takes it. -/
def reported (f? : Option Failure) : List Exchange :=
  f?.toList.map fun f => ⟨.print f.line.bytes, .ok ()⟩

theorem prints_reported (f? : Option Failure) :
    prints (reported f?) = f?.toList.map (·.line.bytes) := by
  cases f? <;> rfl

namespace Reading

/-- What is asked about a file, and answered. -/
def calls (path : Path) : Reading → List Exchange
  | .missing => [⟨.files (.exists path), false⟩]
  | .unopened e =>
    [⟨.files (.exists path), true⟩, ⟨.files (.readLines path), .error e⟩]
  | .opened unread items =>
    ⟨.files (.exists path), true⟩ :: ⟨.files (.readLines path), .ok ⟨items.count, unread⟩⟩ ::
      items.calls ⟨items.count, unread⟩

/-- The lines that are kept of a file. -/
def lines : Reading → List Text
  | .missing | .unopened _ => []
  | .opened _ items => items.lines

/-- What there is to report of a file. -/
def report? (name : Text) : Reading → Option Failure
  | .missing => some (.fileNotFound name)
  | .unopened e => some (.io "Error reading file".toList e)
  | .opened _ items => items.report?

/-- All that happens with a file, if the console takes what is reported. -/
def exchanges (dir : Path) (name : Text) (r : Reading) : List Exchange :=
  r.calls (dir.resolve name) ++ reported (r.report? name)

/-- What is printed for a file is what there is to report of it. -/
theorem prints_exchanges (dir : Path) (name : Text) (r : Reading) :
    prints (r.exchanges dir name) = (r.report? name).toList.map (·.line.bytes) := by
  have hcalls : prints (r.calls (dir.resolve name)) = [] := by
    cases r with
    | opened unread items => exact items.prints_calls _
    | _ => rfl
  rw [exchanges, prints_append, hcalls, prints_reported, List.nil_append]

end Reading

/-! ## One file -/

variable {dir : Path} {reader : Files.Reader} {es : List Exchange}

/-- A report that is taken. -/
theorem runs_complain_iff {f : Failure} {text : Text} {r : Text × Bool} :
    (complain f text).Runs es (.ok r) ↔ es = reported (some f) ∧ r = (text, true) := by
  constructor
  · intro h
    cases h with
    | ask _ answer h =>
    cases answer with
    | error e => cases h
    | ok _ =>
      cases h
      exact ⟨rfl, rfl⟩
  · rintro ⟨rfl, rfl⟩
    exact .ask (.print f.line.bytes) (Except.ok ()) (.done _)

/-- How an open file is got through: item by item. -/
theorem runs_readOn_iff {left : Nat} {latest : List Text} {r : Text × Bool} :
    (readOn left reader latest).run.Runs es (.ok r) ↔
      ∃ items : Items, items.count = left ∧ es = items.calls reader ++ reported items.report? ∧
        r = (linesText (latest.reverse ++ items.lines), items.report?.isSome) := by
  have hnone (latest : List Text) (failed : Bool) :
      (linesText latest.reverse, failed) = (linesText (latest.reverse ++ []), failed) := by
    rw [List.append_nil]
  have hline (latest : List Text) (text : Text) (lines : List Text) (failed : Bool) :
      (linesText ((text :: latest).reverse ++ lines), failed) =
        (linesText (latest.reverse ++ text :: lines), failed) := by
    rw [List.reverse_cons, List.append_assoc, List.singleton_append]
  induction left generalizing reader latest es with
  | zero =>
    rw [run_readOn_zero, runs_done_iff, Except.ok.injEq]
    constructor
    · rintro ⟨rfl, rfl⟩
      exact ⟨.spent, rfl, rfl, hnone latest false⟩
    · rintro ⟨items, hcount, rfl, rfl⟩
      cases items <;> cases hcount
      exact ⟨rfl, (hnone latest false).symm⟩
  | succ left ih =>
    rw [run_readOn_succ, runs_ask_iff]
    constructor
    · rintro ⟨item, rest, rfl, h⟩
      match item with
      | none =>
        obtain ⟨rfl, hr⟩ := runs_done_iff.mp h
        cases hr
        exact ⟨.ended left, rfl, rfl, hnone latest false⟩
      | some (.error e, next) =>
        obtain ⟨rfl, rfl⟩ := runs_complain_iff.mp h
        exact ⟨.failed e next left, rfl, rfl, hnone latest true⟩
      | some (.ok text, next) =>
        obtain ⟨items, rfl, rfl, rfl⟩ := ih.mp h
        exact ⟨.line text next items, rfl, rfl, hline latest text _ _⟩
    · rintro ⟨items, hcount, rfl, rfl⟩
      cases items with
      | spent => cases hcount
      | ended _ =>
        refine ⟨none, [], rfl, runs_done_iff.mpr ⟨rfl, ?_⟩⟩
        exact congrArg Except.ok (hnone latest false).symm
      | failed e next _ =>
        refine ⟨some (.error e, next), _, rfl, runs_complain_iff.mpr ⟨rfl, ?_⟩⟩
        exact (hnone latest true).symm
      | line text next items =>
        refine ⟨some (.ok text, next), _, rfl, ih.mpr ⟨items, Nat.succ.inj hcount, rfl, ?_⟩⟩
        exact (hline latest text _ _).symm

/-- How a file is got through: by one of its readings. -/
theorem runs_readFile_iff {name : Text} {r : Text × Bool} :
    (readFile dir name).run.Runs es (.ok r) ↔
      ∃ found : Reading, es = found.exchanges dir name ∧
        r = (linesText found.lines, (found.report? name).isSome) := by
  rw [run_readFile, runs_ask_iff]
  constructor
  · rintro ⟨found, rest, rfl, h⟩
    cases found with
    | false =>
      obtain ⟨rfl, rfl⟩ := runs_complain_iff.mp h
      exact ⟨.missing, rfl, rfl⟩
    | true =>
      obtain ⟨opened, rest, rfl, hrest⟩ := runs_ask_iff.mp h
      cases opened with
      | error e =>
        obtain ⟨rfl, rfl⟩ := runs_complain_iff.mp hrest
        exact ⟨.unopened e, rfl, rfl⟩
      | ok reader =>
        obtain ⟨left, unread⟩ := reader
        obtain ⟨items, rfl, rfl, rfl⟩ := runs_readOn_iff.mp hrest
        exact ⟨.opened unread items, rfl, rfl⟩
  · rintro ⟨found, rfl, rfl⟩
    cases found with
    | missing => exact ⟨false, _, rfl, runs_complain_iff.mpr ⟨rfl, rfl⟩⟩
    | unopened e =>
      refine ⟨true, _, rfl, runs_ask_iff.mpr ⟨.error e, _, rfl, ?_⟩⟩
      exact runs_complain_iff.mpr ⟨rfl, rfl⟩
    | opened unread items =>
      refine ⟨true, _, rfl, runs_ask_iff.mpr ⟨.ok ⟨items.count, unread⟩, _, rfl, ?_⟩⟩
      exact runs_readOn_iff.mpr ⟨items, rfl, rfl, rfl⟩

/-- A report that is not refused is taken. -/
theorem isOk_of_runs_complain {f : Failure} {text : Text} {r : Except Failure (Text × Bool)}
    (h : (complain f text).Runs es r) (htaken : ∀ e ∈ es, e.taken = true) : ∃ a, r = .ok a := by
  cases h with
  | ask _ answer h =>
  cases answer with
  | error e => cases htaken _ List.mem_cons_self
  | ok _ =>
    cases h
    exact ⟨_, rfl⟩

/-- Reading on is given up only where a report is refused. -/
theorem isOk_of_runs_readOn {left : Nat} {latest : List Text} {r : Except Failure (Text × Bool)}
    (h : (readOn left reader latest).run.Runs es r) (htaken : ∀ e ∈ es, e.taken = true) :
    ∃ a, r = .ok a := by
  induction left generalizing reader latest es with
  | zero => exact ⟨_, (runs_done_iff.mp h).2⟩
  | succ left ih =>
    rw [run_readOn_succ] at h
    obtain ⟨item, _, rfl, hrest⟩ := runs_ask_iff.mp h
    have htaken' := (List.forall_mem_cons.mp htaken).2
    match item with
    | none => exact ⟨_, (runs_done_iff.mp hrest).2⟩
    | some (.error e, _) => exact isOk_of_runs_complain hrest htaken'
    | some (.ok text, _) => exact ih hrest htaken'

/-- A file is given up only where a report is refused. -/
theorem isOk_of_runs_readFile {name : Text} {r : Except Failure (Text × Bool)}
    (h : (readFile dir name).run.Runs es r) (htaken : ∀ e ∈ es, e.taken = true) :
    ∃ a, r = .ok a := by
  rw [run_readFile] at h
  obtain ⟨found, _, rfl, hrest⟩ := runs_ask_iff.mp h
  have htaken' := (List.forall_mem_cons.mp htaken).2
  cases found with
  | false => exact isOk_of_runs_complain hrest htaken'
  | true =>
    obtain ⟨opened, _, rfl, hlast⟩ := runs_ask_iff.mp hrest
    have htaken'' := (List.forall_mem_cons.mp htaken').2
    cases opened with
    | error e => exact isOk_of_runs_complain hlast htaken''
    | ok reader => exact isOk_of_runs_readOn hlast htaken''

/-! ## A row of files -/

/-- Files by name, each with what is told of it. -/
abbrev Findings := List (Text × Reading)

namespace Findings

/-- All that happens with the files, one after another. -/
def exchanges (dir : Path) (found : Findings) : List Exchange :=
  found.flatMap fun f => f.2.exchanges dir f.1

/-- The lines of all files. -/
def lines (found : Findings) : List Text := found.flatMap fun f => f.2.lines

/-- What there is to report, in the order of the files. -/
def reports (found : Findings) : List Failure := found.filterMap fun f => f.2.report? f.1

/-- The text of all files, and whether anything had to be reported. -/
def text (found : Findings) : Text × Bool :=
  (linesText found.lines, !found.reports.isEmpty)

/-- What `cat` leaves: the lines of all files, and the code 1 if anything
had to be reported. -/
def gathered (dir : Path) (found : Findings) : Success :=
  ⟨if found.reports = [] then 0 else 1, (linesText found.lines).bytes, dir⟩

theorem exchanges_cons (dir : Path) (name : Text) (r : Reading) (found : Findings) :
    exchanges dir ((name, r) :: found) = r.exchanges dir name ++ found.exchanges dir :=
  List.flatMap_cons

theorem reports_cons (name : Text) (r : Reading) (found : Findings) :
    reports ((name, r) :: found) = (r.report? name).toList ++ found.reports := by
  rw [reports, List.filterMap_cons]
  cases r.report? name <;> rfl

theorem text_cons (name : Text) (r : Reading) (found : Findings) :
    text ((name, r) :: found) =
      (linesText r.lines ++ found.text.1, (r.report? name).isSome || found.text.2) := by
  simp only [text, reports_cons]
  cases r.report? name <;> simp [lines, linesText]

/-- What is printed for the files is what there is to report. -/
theorem prints_exchanges (dir : Path) (found : Findings) :
    prints (found.exchanges dir) = found.reports.map (·.line.bytes) := by
  induction found with
  | nil => rfl
  | cons f found ih =>
    obtain ⟨name, r⟩ := f
    rw [exchanges_cons, prints_append, r.prints_exchanges, ih, reports_cons, List.map_append]

theorem reports_append (found found' : Findings) :
    reports (found ++ found') = found.reports ++ found'.reports := List.filterMap_append

/-- Two rows are worth their outputs one after the other and the greater code. -/
theorem gathered_append (dir : Path) (found found' : Findings) :
    gathered dir (found ++ found') =
      ⟨max (found.gathered dir).code (found'.gathered dir).code,
        (found.gathered dir).output ++ (found'.gathered dir).output, dir⟩ := by
  have houtput : (linesText (lines (found ++ found'))).bytes =
      (linesText found.lines).bytes ++ (linesText found'.lines).bytes := by
    simp only [lines, linesText, List.flatMap_append, Text.bytes, Utf8.encode_append]
  simp only [gathered, reports_append, houtput, List.append_eq_nil_iff]
  by_cases h : found.reports = [] <;> by_cases h' : found'.reports = [] <;>
  · simp only [h, h', and_self, and_true, true_and, if_true, if_false]
    rfl

end Findings

/-- How a row of files is got through: each by one of its readings. -/
theorem runs_readFiles_iff {names : List Text} {r : Text × Bool} :
    (readFiles dir names).run.Runs es (.ok r) ↔
      ∃ found : Findings, found.map Prod.fst = names ∧ es = found.exchanges dir ∧
        r = found.text := by
  induction names generalizing es r with
  | nil =>
    simp only [readFiles, runs_attempt_pure_iff, Except.ok.injEq, List.map_eq_nil_iff]
    constructor
    · rintro ⟨rfl, rfl⟩
      exact ⟨[], rfl, rfl, rfl⟩
    · rintro ⟨_, rfl, rfl, rfl⟩
      exact ⟨rfl, rfl⟩
  | cons name names ih =>
    simp only [readFiles, runs_attempt_bind_ok_iff, runs_readFile_iff, ih, runs_attempt_pure_iff,
      Except.ok.injEq]
    constructor
    · rintro ⟨_, _, _, ⟨first, rfl, rfl⟩, ⟨_, _, _, ⟨later, rfl, rfl, rfl⟩, ⟨rfl, rfl⟩, rfl⟩, rfl⟩
      refine ⟨(name, first) :: later, rfl, ?_, (Findings.text_cons name first later).symm⟩
      rw [Findings.exchanges_cons, List.append_nil]
    · rintro ⟨found, hnames, rfl, rfl⟩
      obtain ⟨⟨_, first⟩, later, rfl, rfl, rfl⟩ := List.map_eq_cons_iff.mp hnames
      refine ⟨_, _, _, ⟨first, rfl, rfl⟩, ⟨_, _, _, ⟨later, rfl, rfl, rfl⟩, ⟨rfl, ?_⟩, rfl⟩, ?_⟩
      · exact Findings.text_cons _ first later
      · rw [Findings.exchanges_cons, List.append_nil]

/-- A row of files is given up only where a report is refused. -/
theorem isOk_of_runs_readFiles {names : List Text} {r : Except Failure (Text × Bool)}
    (h : (readFiles dir names).run.Runs es r) (htaken : ∀ e ∈ es, e.taken = true) :
    ∃ a, r = .ok a := by
  induction names generalizing es r with
  | nil => exact ⟨_, (runs_attempt_pure_iff.mp h).2⟩
  | cons name names ih =>
    rw [readFiles, runs_attempt_bind_iff] at h
    rcases h with ⟨_, first, _, -, hrest, rfl⟩ | ⟨f, hfirst, rfl⟩
    · have hlast := (List.forall_mem_append.mp htaken).2
      rcases runs_attempt_bind_iff.mp hrest with ⟨_, _, _, _, hend, _⟩ | ⟨f, hlater, rfl⟩
      · exact ⟨_, (runs_attempt_pure_iff.mp hend).2⟩
      · exact ih hlater hlast
    · exact isOk_of_runs_readFile hfirst htaken

/-! ## `cat` -/

theorem runs_runCat_iff {files : List Text} {s : Success} :
    (runCat files dir).run.Runs es (.ok s) ↔
      ∃ found : Findings, found.map Prod.fst = files ∧ es = found.exchanges dir ∧
        s = found.gathered dir := by
  simp only [runCat, runs_attempt_bind_ok_iff, runs_readFiles_iff, runs_attempt_pure_iff,
    Except.ok.injEq]
  constructor
  · rintro ⟨_, _, _, ⟨found, hfiles, rfl, rfl⟩, ⟨rfl, rfl⟩, rfl⟩
    refine ⟨found, hfiles, List.append_nil _, ?_⟩
    simp [Findings.text, Findings.gathered]
  · rintro ⟨found, hfiles, rfl, rfl⟩
    refine ⟨_, _, _, ⟨found, hfiles, rfl, rfl⟩, ⟨rfl, ?_⟩, (List.append_nil _).symm⟩
    simp [Findings.text, Findings.gathered]

theorem isOk_of_runs_runCat {files : List Text} {r : Except Failure Success}
    (h : (runCat files dir).run.Runs es r) (htaken : ∀ e ∈ es, e.taken = true) :
    ∃ s, r = .ok s := by
  rcases runs_attempt_bind_iff.mp h with ⟨_, _, _, _, hend, _⟩ | ⟨f, hfiles, rfl⟩
  · exact ⟨_, (runs_attempt_pure_iff.mp hend).2⟩
  · obtain ⟨_, hok⟩ := isOk_of_runs_readFiles hfiles htaken
    cases hok

/-- What it takes to run `cat` on a console that takes everything. -/
theorem run_runCat {φ κ : Type} (w : World φ κ) {s : Scene φ κ}
    (hcon : w.console.TakesAll s.console) (files : List Text) (dir : Path) :
    ∃ found : Findings, found.map Prod.fst = files ∧
      ((runCat files dir).run.run w s).exchanges = found.exchanges dir ∧
      ((runCat files dir).run.run w s).value = .ok (found.gathered dir) := by
  have hruns := runs_run w (runCat files dir).run s
  obtain ⟨success, hvalue⟩ := isOk_of_runs_runCat hruns (taken_of_takesAll w _ hcon)
  rw [hvalue] at hruns
  obtain ⟨found, hfiles, hexchanges, rfl⟩ := runs_runCat_iff.mp hruns
  exact ⟨found, hfiles, hexchanges, hvalue⟩

/-! ## In turn -/

/-- The reader whose turn it is right behind an exchange: that of a file
that was opened, or the one left behind a good line. -/
def turnBehind : Exchange → Option Files.Reader
  | ⟨.files (.readLines _), .ok reader⟩ => some reader
  | ⟨.files (.nextLine _), some (.ok _, reader)⟩ => some reader
  | _ => none

/-- Readers are asked for items only in their turn. Behind the end of a
file, or an item that fails, it is nobody's turn until a file is opened. -/
def InTurn : Option Files.Reader → List Exchange → Prop
  | _, [] => True
  | turn, e :: es =>
    (∀ reader, e.request = .files (.nextLine reader) → turn = some reader) ∧
      InTurn (turnBehind e) es

theorem InTurn.append {turn : Option Files.Reader} {es es' : List Exchange} (h : InTurn turn es)
    (h' : ∀ turn, InTurn turn es') : InTurn turn (es ++ es') := by
  induction es generalizing turn with
  | nil => exact h' turn
  | cons e es ih => exact ⟨h.1, ih h.2⟩

theorem inTurn_of_runs_complain {f : Failure} {text : Text} {r : Except Failure (Text × Bool)}
    (h : (complain f text).Runs es r) (turn : Option Files.Reader) : InTurn turn es := by
  cases h with
  | ask _ answer h =>
  cases answer <;> cases h <;> exact ⟨nofun, trivial⟩

theorem inTurn_of_runs_readOn {left : Nat} {latest : List Text}
    {r : Except Failure (Text × Bool)} (h : (readOn left reader latest).run.Runs es r) :
    InTurn (some reader) es := by
  induction left generalizing reader latest es with
  | zero =>
    obtain ⟨rfl, -⟩ := runs_done_iff.mp h
    trivial
  | succ left ih =>
    rw [run_readOn_succ] at h
    obtain ⟨item, _, rfl, hrest⟩ := runs_ask_iff.mp h
    refine ⟨?_, ?_⟩
    · rintro _ ⟨⟩
      rfl
    match item with
    | none =>
      obtain ⟨rfl, -⟩ := runs_done_iff.mp hrest
      trivial
    | some (.error e, _) => exact inTurn_of_runs_complain hrest _
    | some (.ok text, _) => exact ih hrest

theorem inTurn_of_runs_readFile {name : Text} {r : Except Failure (Text × Bool)}
    (h : (readFile dir name).run.Runs es r) (turn : Option Files.Reader) : InTurn turn es := by
  rw [run_readFile] at h
  obtain ⟨found, _, rfl, hrest⟩ := runs_ask_iff.mp h
  refine ⟨nofun, ?_⟩
  cases found with
  | false => exact inTurn_of_runs_complain hrest _
  | true =>
    obtain ⟨opened, _, rfl, hlast⟩ := runs_ask_iff.mp hrest
    refine ⟨nofun, ?_⟩
    cases opened with
    | error e => exact inTurn_of_runs_complain hlast _
    | ok reader => exact inTurn_of_runs_readOn hlast

/-- Whatever is answered, and also where a report is refused, readers are
asked in their turn. -/
theorem inTurn_of_runs_readFiles {names : List Text} {r : Except Failure (Text × Bool)}
    (h : (readFiles dir names).run.Runs es r) (turn : Option Files.Reader) : InTurn turn es := by
  induction names generalizing es r turn with
  | nil =>
    obtain ⟨rfl, -⟩ := runs_attempt_pure_iff.mp h
    trivial
  | cons name names ih =>
    rw [readFiles, runs_attempt_bind_iff] at h
    rcases h with ⟨_, first, _, hfirst, hrest, rfl⟩ | ⟨f, hfirst, -⟩
    · refine (inTurn_of_runs_readFile hfirst turn).append fun turn' => ?_
      rcases runs_attempt_bind_iff.mp hrest with ⟨_, _, _, hlater, hend, rfl⟩ | ⟨f, hlater, -⟩
      · obtain ⟨rfl, -⟩ := runs_attempt_pure_iff.mp hend
        exact (ih hlater turn').append fun _ => trivial
      · exact ih hlater turn'
    · exact inTurn_of_runs_readFile hfirst turn

/-! ## One by one -/

/-- `cat` goes through its files one by one. Whatever is told of them, that
is a way it can go, and on a console that takes everything it goes no
other: the output is the lines of all files up to the end or to the first
item that fails, behind one report for each file that is missing, cannot
be opened or fails, and the code is 1 if there was one. On any console
nothing more of a file is asked for behind its end or an item that fails.
So `cat` of two rows is worth the two outputs and the two rows of reports
one after the other, and the greater of the codes. -/
theorem cat_file_by_file (dir : Path) :
    (∀ found : Findings,
      (runCat (found.map Prod.fst) dir).run.Runs (found.exchanges dir)
        (.ok (found.gathered dir))) ∧
    (∀ {φ κ : Type} (w : World φ κ) (s : Scene φ κ), w.console.TakesAll s.console →
      ∀ files : List Text, ∃ found : Findings, found.map Prod.fst = files ∧
        ((runCat files dir).run.run w s).exchanges = found.exchanges dir ∧
        ((runCat files dir).run.run w s).value = .ok (found.gathered dir) ∧
        (files ≠ [] →
          let whole := Shell.run table ⟨Name.cat.text, files, none⟩ dir
          (whole.run w s).value = (.ok (if found.reports = [] then 0 else 1), dir) ∧
          whole.shown w s =
            found.reports.flatMap (·.line.bytes) ++ (linesText found.lines).bytes)) ∧
    (∀ files es r, (runCat files dir).run.Runs es r → InTurn none es) ∧
    (∀ xs ys es s, (runCat (xs ++ ys) dir).run.Runs es (.ok s) ↔
      ∃ es₁ es₂ a b, (runCat xs dir).run.Runs es₁ (.ok a) ∧ (runCat ys dir).run.Runs es₂ (.ok b) ∧
        es = es₁ ++ es₂ ∧ s = ⟨max a.code b.code, a.output ++ b.output, dir⟩) := by
  refine ⟨fun found => ?_, fun w s hcon files => ?_, fun files es r hruns => ?_,
    fun xs ys es s => ?_⟩
  · exact runs_runCat_iff.mpr ⟨found, rfl, rfl, rfl⟩
  · obtain ⟨found, hfiles, hexchanges, hvalue⟩ := run_runCat w hcon files dir
    refine ⟨found, hfiles, hexchanges, hvalue, fun hne => ?_⟩
    have hcat : ((command .cat files).run dir).run w s =
        ⟨outcome dir (.ok (found.gathered dir)), ((runCat files dir).run.run w s).scene,
          found.exchanges dir⟩ := by
      have hargs : ofArgs .cat files = .ok (.cat files) := by
        cases files with
        | nil => exact absurd rfl hne
        | cons name names => rfl
      rw [run_command_ok hargs, run_map, perform, hexchanges, hvalue]
    obtain ⟨hwhole, hprints⟩ := Shell.run_to_console w (n := .cat) rfl files dir hcon
      (by rw [hcat]; rfl)
    rw [hcat] at hwhole hprints
    refine ⟨hwhole, ?_⟩
    rw [(shown_eq_flatten w _ hcon).1, hprints, Findings.prints_exchanges, List.flatten_append,
      List.flatten_singleton, List.flatMap_def]
    rfl
  · rcases runs_attempt_bind_iff.mp hruns with ⟨_, _, _, hfiles, hend, rfl⟩ | ⟨f, hfiles, -⟩
    · obtain ⟨rfl, -⟩ := runs_attempt_pure_iff.mp hend
      exact (inTurn_of_runs_readFiles hfiles none).append fun _ => trivial
    · exact inTurn_of_runs_readFiles hfiles none
  · simp only [runs_runCat_iff]
    constructor
    · rintro ⟨found, hfiles, rfl, rfl⟩
      obtain ⟨first, second, rfl, rfl, rfl⟩ := List.map_eq_append_iff.mp hfiles
      refine ⟨_, _, _, _, ⟨first, rfl, rfl, rfl⟩, ⟨second, rfl, rfl, rfl⟩, ?_, ?_⟩
      · exact List.flatMap_append
      · exact Findings.gathered_append dir first second
    · rintro ⟨_, _, _, _, ⟨first, rfl, rfl, rfl⟩, ⟨second, rfl, rfl, rfl⟩, rfl, rfl⟩
      refine ⟨first ++ second, List.map_append, List.flatMap_append.symm, ?_⟩
      exact (Findings.gathered_append dir first second).symm

/-- A missing file, a directory and a file: two reports, then the line. -/
theorem cat_file_by_file_missing_and_directory :
    let h : Host := ⟨.directory 0 [(['d'], .directory 0 []), (['f'], .file [120])], .inTree []⟩
    let whole := Shell.run table ⟨Name.cat.text, [['m'], ['d'], ['f']], none⟩ Path.root
    whole.shown (Host.world Host.fileSystem Console.screen) ⟨h, {}⟩ =
      (Failure.fileNotFound ['m']).line.bytes ++
        (Failure.io "Error reading file".toList (.system .isADirectory)).line.bytes ++
          [120, 10] := by
  intro h whole
  obtain ⟨_, hworld, _⟩ := cat_file_by_file Path.root
  obtain ⟨found, _, hexchanges, hvalue, hwhole⟩ :=
    hworld (Host.world Host.fileSystem Console.screen) ⟨h, {}⟩ (Console.takesAll_screen rfl)
      [['m'], ['d'], ['f']]
  obtain ⟨_, hshown⟩ := hwhole (by simp)
  have hreports := congrArg prints hexchanges
  rw [Findings.prints_exchanges] at hreports
  have hlines : [120, 10] = (linesText found.lines).bytes :=
    congrArg Success.output (Except.ok.inj hvalue)
  rw [hshown, List.flatMap_def, ← hreports, ← hlines]
  rfl

end Builtin

end FileShell

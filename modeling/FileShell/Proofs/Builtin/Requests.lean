/-
FileShell.Proofs.Builtin.Requests — what a command may ask for, and where
it may leave the session.

`Builtin.Requests` lists, command by command, everything that is asked
for, and `Ends` how a success can end. `within_perform` goes through the
eleven commands once; what holds of everything in the list holds of a
command whatever it is answered (`keeps_command_of`), and that is how the
other statements of this kind are proved.

A command that starts in a directory speaks of four kinds of paths only
(`Path.Derived`): the directory, an argument resolved from it, the path
above it, and a resolved destination with the last name of a resolved
source in it. `Asks` are calls about such paths, prints and records; no
command flushes the console or touches the history. The commands with
output ask for less (`Reads`): they put questions to the file system,
report failures on the console, and stay in the directory.
-/
import FileShell.Proofs.Builtin.Trees
import FileShell.Proofs.Program.Keeps

namespace FileShell

/-- The paths that a call speaks of. -/
def Files.Call.paths : Files.Call → List Path
  | .exists p | .isDirectory p | .entries p | .createDirectory p | .removeDirectory p => [p]
  | .removeFile p | .createFile p | .readLines p | .write p _ _ => [p]
  | .move source target => [source, target]
  | .nextLine _ => []

/-- Whether a call is a question, not an order. -/
def Files.Call.isQuestion : Files.Call → Bool
  | .exists _ | .isDirectory _ | .entries _ | .readLines _ | .nextLine _ => true
  | _ => false

/-- A path that a command in a directory comes to speak of. -/
inductive Path.Derived (dir : Path) : Path → Prop where
  | here : Derived dir dir
  | resolved (arg : Text) : Derived dir (dir.resolve arg)
  | above {p : Path} (h : dir.parent? = some p) : Derived dir p
  /-- The last name of one resolved path in another. -/
  | inside (source destination : Text) {base : Text}
      (h : (dir.resolve source).fileName? = some base) :
      Derived dir ((dir.resolve destination).join ⟨base⟩)

namespace Builtin

open Program

/-! ## The list of requests -/

/-- What each command may ask for when it starts in a directory. -/
inductive Requests (dir : Path) : Builtin → Request → Prop where
  | lsIsDirectory (l : Listing) : Requests dir (.ls l) (.files (.isDirectory (l.place dir)))
  | lsEntries (l : Listing) : Requests dir (.ls l) (.files (.entries (l.place dir)))
  | catExists {files : List Text} {name : Text} (h : name ∈ files) :
      Requests dir (.cat files) (.files (.exists (dir.resolve name)))
  | catReadLines {files : List Text} {name : Text} (h : name ∈ files) :
      Requests dir (.cat files) (.files (.readLines (dir.resolve name)))
  | catNextLine (files : List Text) (reader : Files.Reader) :
      Requests dir (.cat files) (.files (.nextLine reader))
  | catReport (files : List Text) (f : Failure) : Requests dir (.cat files) (.print f.line.bytes)
  | pwdPrint : Requests dir .pwd (.print (Text.bytes (dir.text ++ ['\n'])))
  | cdIsDirectory {target : Text} {place : Path} (h : cdTarget target dir = .ok place) :
      Requests dir (.cd target) (.files (.isDirectory place))
  | cdNote {target : Text} {place : Path} (h : cdTarget target dir = .ok place) :
      Requests dir (.cd target) (.note (.directoryChanged dir place))
  | cdPrint {target : Text} {place : Path} (h : cdTarget target dir = .ok place) :
      Requests dir (.cd target)
        (.print (Text.bytes ("Changed directory to: ".toList ++ place.text ++ ['\n'])))
  | mkdirMake (arg : Text) :
      Requests dir (.mkdir arg) (.files (.createDirectory (dir.resolve arg)))
  | mkdirPrint (arg : Text) :
      Requests dir (.mkdir arg) (.print (Text.bytes
        ("Directory created successfully: ".toList ++ (dir.resolve arg).text ++ ['\n'])))
  | rmdirExists (arg : Text) : Requests dir (.rmdir arg) (.files (.exists (dir.resolve arg)))
  | rmdirIsDirectory (arg : Text) :
      Requests dir (.rmdir arg) (.files (.isDirectory (dir.resolve arg)))
  | rmdirEntries (arg : Text) : Requests dir (.rmdir arg) (.files (.entries (dir.resolve arg)))
  | rmdirRemove (arg : Text) :
      Requests dir (.rmdir arg) (.files (.removeDirectory (dir.resolve arg)))
  | rmdirPrint (arg : Text) :
      Requests dir (.rmdir arg) (.print (Text.bytes
        ("Directory removed successfully: ".toList ++ (dir.resolve arg).text ++ ['\n'])))
  | rmExists (arg : Text) : Requests dir (.rm arg) (.files (.exists (dir.resolve arg)))
  | rmIsDirectory (arg : Text) : Requests dir (.rm arg) (.files (.isDirectory (dir.resolve arg)))
  | rmRemove (arg : Text) : Requests dir (.rm arg) (.files (.removeFile (dir.resolve arg)))
  | rmPrint (arg : Text) :
      Requests dir (.rm arg)
        (.print (Text.bytes ("File deleted successfully: ".toList ++ arg ++ ['\n'])))
  | mvExists (source destination : Text) :
      Requests dir (.mv source destination) (.files (.exists (dir.resolve source)))
  | mvIsDirectory (source destination : Text) :
      Requests dir (.mv source destination) (.files (.isDirectory (dir.resolve destination)))
  | mvMove (source destination : Text) (intoDirectory : Bool) :
      Requests dir (.mv source destination) (.files (.move (dir.resolve source)
        (moveTarget (dir.resolve source) (dir.resolve destination) intoDirectory)))
  | mvPrint (source destination : Text) (target : Path) :
      Requests dir (.mv source destination) (.print (Text.bytes
        ("Moved/Renamed successfully: ".toList ++ source ++ " to ".toList ++ target.text
          ++ ['\n'])))
  | touchMake (arg : Text) : Requests dir (.touch arg) (.files (.createFile (dir.resolve arg)))
  | touchPrint (arg : Text) :
      Requests dir (.touch arg) (.print (Text.bytes ("File created: ".toList ++ arg ++ ['\n'])))
  | helpPrint : Requests dir .help (.print helpText.bytes)

/-- How a command that starts in a directory can succeed. -/
inductive Ends (dir : Path) : Builtin → Success → Prop where
  | plain (b : Builtin) (output : Bytes) : Ends dir b ⟨0, output, dir⟩
  /-- A `cat` that had to report something has another code. -/
  | cat (files : List Text) (code : ExitCode) (output : Bytes) :
      Ends dir (.cat files) ⟨code, output, dir⟩
  /-- A `cd` leaves the session where it was sent. -/
  | cd {target : Text} {place : Path} (h : cdTarget target dir = .ok place) :
      Ends dir (.cd target) (.quiet place)

/-- A program asks for nothing but what a command may ask for, and ends as
the command can. -/
def Within (dir : Path) (b : Builtin) (p : Program (Except Failure Success)) : Prop :=
  p.Keeps (fun e => Requests dir b e.request) fun r => ∀ s, r = .ok s → Ends dir b s

variable {dir : Path}

/-! ## The eleven commands, once -/

section

variable {b : Builtin}

theorem within_error (f : Failure) : Within dir b (.done (.error f)) := fun _ h => nomatch h

theorem within_ok {s : Success} (h : Ends dir b s) : Within dir b (.done (.ok s)) :=
  fun _ he => Except.ok.inj he ▸ h

theorem within_announce {t : Text} {s : Success} (ht : Requests dir b (.print t.bytes))
    (hs : Ends dir b s) : Within dir b (announce t s) := by
  intro answer
  refine ⟨ht, ?_⟩
  cases answer with
  | ok _ => exact within_ok hs
  | error e => exact within_error _

end

theorem within_runCd (target : Text) : Within dir (.cd target) (runCd target dir).run := by
  rw [run_runCd]
  cases h : cdTarget target dir with
  | error f => exact within_error f
  | ok place =>
    intro isDirectory
    refine ⟨.cdIsDirectory h, ?_⟩
    cases isDirectory with
    | false => exact within_error _
    | true => exact fun _ => ⟨.cdNote h, within_announce (.cdPrint h) (.cd h)⟩

theorem within_runMkdir (arg : Text) : Within dir (.mkdir arg) (runMkdir arg dir).run := by
  rw [run_runMkdir]
  intro made
  refine ⟨.mkdirMake arg, ?_⟩
  cases made with
  | ok _ => exact within_announce (.mkdirPrint arg) (.plain _ _)
  | error e => exact within_error _

theorem within_runTouch (arg : Text) : Within dir (.touch arg) (runTouch arg dir).run := by
  rw [run_runTouch]
  intro made
  refine ⟨.touchMake arg, ?_⟩
  cases made with
  | ok _ => exact within_announce (.touchPrint arg) (.plain _ _)
  | error e => exact within_error _

theorem within_runRmdir (arg : Text) : Within dir (.rmdir arg) (runRmdir arg dir).run := by
  rw [run_runRmdir]
  intro found
  refine ⟨.rmdirExists arg, ?_⟩
  cases found with
  | false => exact within_error _
  | true =>
    intro isDirectory
    refine ⟨.rmdirIsDirectory arg, ?_⟩
    cases isDirectory with
    | false => exact within_error _
    | true =>
      intro names
      refine ⟨.rmdirEntries arg, ?_⟩
      match names with
      | .error e => exact within_error _
      | .ok (_ :: _) => exact within_error _
      | .ok [] =>
        intro removed
        refine ⟨.rmdirRemove arg, ?_⟩
        cases removed with
        | ok _ => exact within_announce (.rmdirPrint arg) (.plain _ _)
        | error e => exact within_error _

theorem within_runRm (arg : Text) : Within dir (.rm arg) (runRm arg dir).run := by
  rw [run_runRm]
  intro found
  refine ⟨.rmExists arg, ?_⟩
  cases found with
  | false => exact within_error _
  | true =>
    intro isDirectory
    refine ⟨.rmIsDirectory arg, ?_⟩
    cases isDirectory with
    | true => exact within_error _
    | false =>
      intro removed
      refine ⟨.rmRemove arg, ?_⟩
      cases removed with
      | ok _ => exact within_announce (.rmPrint arg) (.plain _ _)
      | error e => exact within_error _

theorem within_runMv (source destination : Text) :
    Within dir (.mv source destination) (runMv source destination dir).run := by
  rw [run_runMv]
  intro found
  refine ⟨.mvExists source destination, ?_⟩
  cases found with
  | false => exact within_error _
  | true =>
    intro isDirectory
    refine ⟨.mvIsDirectory source destination, ?_⟩
    intro moved
    refine ⟨.mvMove source destination isDirectory, ?_⟩
    cases moved with
    | ok _ => exact within_announce (.mvPrint source destination _) (.plain _ _)
    | error e => exact within_error _

theorem within_runLs (l : Listing) : Within dir (.ls l) (runLs l dir).run := by
  rw [run_runLs]
  intro isDirectory
  refine ⟨.lsIsDirectory l, ?_⟩
  cases isDirectory with
  | false => exact within_error _
  | true =>
    intro names
    refine ⟨.lsEntries l, ?_⟩
    cases names with
    | ok names => exact within_ok (.plain _ _)
    | error e => exact within_error _

section

variable (files : List Text)

theorem keeps_complain (f : Failure) (text : Text) :
    (complain f text).Keeps (fun e => Requests dir (.cat files) e.request) fun _ => True := by
  intro answer
  refine ⟨.catReport files f, ?_⟩
  cases answer <;> trivial

theorem keeps_readOn (left : Nat) (reader : Files.Reader) (latest : List Text) :
    (readOn left reader latest).run.Keeps (fun e => Requests dir (.cat files) e.request)
      fun _ => True := by
  induction left generalizing reader latest with
  | zero => trivial
  | succ left ih =>
    rw [run_readOn_succ]
    intro item
    refine ⟨.catNextLine files reader, ?_⟩
    match item with
    | none => trivial
    | some (.error e, _) => exact keeps_complain files _ _
    | some (.ok line, reader) => exact ih reader (line :: latest)

theorem keeps_readFile {name : Text} (h : name ∈ files) :
    (readFile dir name).run.Keeps (fun e => Requests dir (.cat files) e.request)
      fun _ => True := by
  rw [run_readFile]
  intro found
  refine ⟨.catExists h, ?_⟩
  cases found with
  | false => exact keeps_complain files _ _
  | true =>
    intro opened
    refine ⟨.catReadLines h, ?_⟩
    cases opened with
    | error e => exact keeps_complain files _ _
    | ok reader => exact keeps_readOn files _ _ _

theorem keeps_readFiles {names : List Text} (h : ∀ name ∈ names, name ∈ files) :
    (readFiles dir names).run.Keeps (fun e => Requests dir (.cat files) e.request)
      fun _ => True := by
  induction names with
  | nil => trivial
  | cons name names ih =>
    obtain ⟨hname, hnames⟩ := List.forall_mem_cons.mp h
    rw [readFiles, keeps_attempt_bind]
    refine (keeps_readFile files hname).imp fun first _ => ?_
    cases first with
    | error e => trivial
    | ok first =>
      refine (keeps_attempt_bind _ _ _).mpr ((ih hnames).imp fun later _ => ?_)
      cases later <;> trivial

theorem within_runCat : Within dir (.cat files) (runCat files dir).run := by
  rw [Within, runCat, keeps_attempt_bind]
  refine (keeps_readFiles files fun _ h => h).imp fun r _ => ?_
  cases r with
  | error e => exact within_error e
  | ok r => exact within_ok (.cat files _ _)

end

/-- Every command keeps to the list. -/
theorem within_perform (b : Builtin) : Within dir b (b.perform dir).run := by
  cases b with
  | echo message => exact within_ok (.plain _ _)
  | ls listing => exact within_runLs listing
  | cat files => exact within_runCat files
  | pwd => rw [perform, run_runPwd]; exact within_announce .pwdPrint (.plain _ _)
  | cd target => exact within_runCd target
  | mkdir directory => exact within_runMkdir directory
  | rmdir directory => exact within_runRmdir directory
  | rm file => exact within_runRm file
  | mv source destination => exact within_runMv source destination
  | touch file => exact within_runTouch file
  | help => rw [perform, run_runHelp]; exact within_announce .helpPrint (.plain _ _)

/-! ## From the list to the commands of the table -/

/-- The word that a command was read from. -/
def name : Builtin → Name
  | .echo _ => .echo
  | .ls _ => .ls
  | .cat _ => .cat
  | .pwd => .pwd
  | .cd _ => .cd
  | .mkdir _ => .mkdir
  | .rmdir _ => .rmdir
  | .rm _ => .rm
  | .mv _ _ => .mv
  | .touch _ => .touch
  | .help => .help

theorem name_of_ofArgs {n : Name} {args : List Text} {b : Builtin} (h : ofArgs n args = .ok b) :
    b.name = n := by
  cases n <;> rcases args with _ | ⟨_, _ | ⟨_, _⟩⟩ <;> cases h <;> rfl

/-- What holds of everything that a command may ask for, of its successes
and of a failure holds of the command whatever it is answered. -/
theorem keeps_command_of {n : Name} {each : Exchange → Prop} {last : Outcome → Prop}
    (heach : ∀ b e, b.name = n → Requests dir b e.request → each e)
    (hok : ∀ b s, b.name = n → Ends dir b s → last (outcome dir (.ok s)))
    (herror : ∀ f, last (outcome dir (.error f))) (args : List Text) :
    ((command n args).run dir).Keeps each last := by
  rw [command, keeps_map]
  cases hargs : ofArgs n args with
  | error f => exact herror f
  | ok b =>
    have hname : b.name = n := name_of_ofArgs hargs
    refine ((within_perform b).mono fun e he => heach b e hname he).imp fun r hr => ?_
    cases r with
    | ok s => exact hok b s hname (hr s rfl)
    | error f => exact herror f

/-! ## Paths -/

/-- What a command in a directory may ask for, by the paths it speaks of. -/
inductive Asks (dir : Path) : Exchange → Prop where
  | call {c : Files.Call} (h : ∀ p ∈ c.paths, Path.Derived dir p)
      (answer : (Request.files c).Answer) : Asks dir ⟨.files c, answer⟩
  | print (content : Bytes) (answer : (Request.print content).Answer) :
      Asks dir ⟨.print content, answer⟩
  | note (record : Log.Record) (answer : (Request.note record).Answer) :
      Asks dir ⟨.note record, answer⟩

/-- A call about one path. -/
theorem asks_about {dir p : Path} {c : Files.Call} (hc : c.paths = [p]) (hp : Path.Derived dir p)
    (answer : (Request.files c).Answer) : Asks dir ⟨.files c, answer⟩ :=
  .call (by simpa [hc] using hp) answer

theorem derived_cdTarget {target : Text} {place : Path} (h : cdTarget target dir = .ok place) :
    Path.Derived dir place := by
  unfold cdTarget at h
  split at h
  · split at h
    · next up hup =>
      cases h
      exact .above hup
    · cases h
  · cases h
    exact .resolved target

/-- The target of a move is the destination, or the source's last name in it. -/
theorem derived_moveTarget (source destination : Text) (intoDirectory : Bool) :
    Path.Derived dir (moveTarget (dir.resolve source) (dir.resolve destination) intoDirectory) := by
  unfold moveTarget
  split
  · split
    · next base hbase => exact .inside source destination hbase
    · exact .resolved destination
  · exact .resolved destination

theorem derived_place (l : Listing) : Path.Derived dir (l.place dir) := by
  unfold Listing.place
  split
  · exact .resolved _
  · exact .here

/-- Everything in the list speaks of derived paths. -/
theorem Requests.asks {b : Builtin} {r : Request} (h : Requests dir b r) (answer : r.Answer) :
    Asks dir ⟨r, answer⟩ := by
  cases h with
  | lsIsDirectory l | lsEntries l => exact asks_about rfl (derived_place l) _
  | cdIsDirectory h => exact asks_about rfl (derived_cdTarget h) _
  | cdNote => exact .note _ _
  | mvMove source destination intoDirectory =>
    refine .call (fun p hp => ?_) _
    simp only [Files.Call.paths, List.mem_cons, List.not_mem_nil, or_false] at hp
    rcases hp with rfl | rfl
    · exact .resolved source
    · exact derived_moveTarget source destination intoDirectory
  | catNextLine => exact .call (fun _ hp => absurd hp List.not_mem_nil) _
  | catReport | pwdPrint | cdPrint | mkdirPrint | rmdirPrint | rmPrint => exact .print _ _
  | mvPrint | touchPrint | helpPrint => exact .print _ _
  | _ => exact asks_about rfl (.resolved _) _

/-- Every command asks for such things only, and ends in such a directory. -/
theorem keeps_command (n : Name) (args : List Text) :
    ((command n args).run dir).Keeps (Asks dir) fun out => Path.Derived dir out.directory := by
  refine keeps_command_of (fun b e _ he => he.asks e.answer) (fun b s _ hs => ?_)
    (fun f => .here) args
  cases hs with
  | plain => exact .here
  | cat => exact .here
  | cd h => exact derived_cdTarget h

/-! ## Commands with output -/

/-- What a command with output may ask for in a directory. -/
inductive Reads (dir : Path) : Exchange → Prop where
  | question {c : Files.Call} (hc : c.isQuestion = true) (h : ∀ p ∈ c.paths, Path.Derived dir p)
      (answer : (Request.files c).Answer) : Reads dir ⟨.files c, answer⟩
  | report (f : Failure) (answer : (Request.print f.line.bytes).Answer) :
      Reads dir ⟨.print f.line.bytes, answer⟩

/-- A question about one path. -/
theorem reads_about {p : Path} {c : Files.Call} (hc : c.isQuestion = true) (hpaths : c.paths = [p])
    (hp : Path.Derived dir p) (answer : (Request.files c).Answer) : Reads dir ⟨.files c, answer⟩ :=
  .question hc (by simpa [hpaths] using hp) answer

theorem Requests.reads {b : Builtin} (hb : b.name.redirectable = true) {r : Request}
    (h : Requests dir b r) (answer : r.Answer) : Reads dir ⟨r, answer⟩ := by
  cases h with
  | lsIsDirectory l | lsEntries l => exact reads_about rfl rfl (derived_place l) _
  | catExists | catReadLines => exact reads_about rfl rfl (.resolved _) _
  | catNextLine => exact .question rfl (fun _ hp => absurd hp List.not_mem_nil) _
  | catReport files f => exact .report f _
  | _ => cases hb

/-- Only `cd` leaves the session elsewhere. -/
theorem Ends.directory {b : Builtin} (hb : b.name ≠ .cd) {s : Success} (h : Ends dir b s) :
    s.directory = dir := by
  cases h with
  | plain => rfl
  | cat => rfl
  | cd => exact absurd rfl hb

/-- A command whose output can be redirected only reads, and stays. -/
theorem keeps_command_reads {n : Name} (hn : n.redirectable = true) (args : List Text) :
    ((command n args).run dir).Keeps (Reads dir) fun out => out.directory = dir := by
  refine keeps_command_of (fun b e hb he => ?_) (fun b s hb hs => ?_) (fun _ => rfl) args
  · exact he.reads (hb ▸ hn) e.answer
  · refine hs.directory fun hcd => ?_
    rw [← hb, hcd] at hn
    cases hn

theorem find?_table (n : Name) : table.find? n.text = some (command n) := by
  cases n <;> rfl

/-- Only the eleven commands are found in the table. -/
theorem exists_of_find?_table {name : Text} {make : List Text → Command}
    (h : table.find? name = some make) : ∃ n : Name, name = n.text ∧ make = command n := by
  obtain ⟨before, after, hsplit, _⟩ := List.lookup_eq_some_iff.mp h
  have hmem : (name, make) ∈ table.entries := by simp [hsplit]
  obtain ⟨n, _, hn⟩ := List.mem_map.mp hmem
  exact ⟨n, (Prod.mk.inj hn).1.symm, (Prod.mk.inj hn).2.symm⟩

/-- No two commands are called by one word. -/
theorem Name.text_injective : Function.Injective Name.text := by
  have hmem (n : Name) : n ∈ Name.all := by cases n <;> decide
  have hall : ∀ a ∈ Name.all, ∀ b ∈ Name.all, a.text = b.text → a = b := by decide
  exact fun a b h => hall a (hmem a) b (hmem b) h

end Builtin

end FileShell

/-
FileShell.Proofs.Shell.Whereabouts — where a session is, segment by
segment.

A session is in one directory from segment to segment. A `cd` that
succeeds leaves it in the directory it was asked for, and in the same run
the file system has said that there is one (`Arrived`). Every other
segment leaves it where it was: another command, a `cd` that fails, also
one that fails at its very last step because the console refuses its line,
and a segment that is no invocation at all.

This is read off the ways a command can go (`directory_of_runs` for the
ten, `runs_command_cd` for `cd`), so nothing is assumed of the file system
or of the console. `session_moves_by_cd` brings it to sessions of any
length; between two lines nothing moves.
-/
import FileShell.Proofs.Shell.Dispatch
import FileShell.Proofs.Shell.Pipeline
import FileShell.Proofs.Shell.Session

namespace FileShell

variable {φ κ : Type}

namespace Builtin

open Program

variable {dir : Path} {es : List Exchange} {out : Outcome}

/-! ## The ways of a command, by where they end -/

theorem runs_announce {t : Text} {s : Success} {r : Except Failure Success}
    (h : (announce t s).Runs es r) :
    ∃ answer, es = [⟨.print t.bytes, answer⟩] ∧ r = announced s answer := by
  obtain ⟨answer, rest, rfl, hrest⟩ := runs_ask_iff.mp h
  obtain ⟨rfl, rfl⟩ := runs_done_iff.mp hrest
  exact ⟨answer, rfl, rfl⟩

/-- Every command but `cd` stays where it is. -/
theorem directory_of_runs {n : Name} (hn : n ≠ .cd) {args : List Text}
    (h : ((command n args).run dir).Runs es out) : out.directory = dir := by
  have hkeeps : ((command n args).run dir).Keeps (fun _ => True) (·.directory = dir) :=
    keeps_command_of (fun _ _ _ _ => trivial) (fun _ _ hb hs => hs.directory (hb ▸ hn))
      (fun _ => rfl) args
  exact (hkeeps.of_runs h).2

/-- A `cd` fails with nothing on record, or it asks for its target, puts the
move on record and says its line. It is there if the console takes the line. -/
theorem runs_command_cd {args : List Text} (h : ((command .cd args).run dir).Runs es out) :
    ((∀ e ∈ es, ∀ r, e.request ≠ .note r) ∧
      ∃ f, out = outcome dir (.error f) ∧ ∀ e, f ≠ .console e) ∨
      ∃ target rest place answer, args = target :: rest ∧ cdTarget target dir = .ok place ∧
        es = [⟨.files (.isDirectory place), true⟩, ⟨.note (.directoryChanged dir place), ()⟩,
          ⟨.print (Text.bytes ("Changed directory to: ".toList ++ place.text ++ ['\n'])), answer⟩] ∧
        out = outcome dir (announced (.quiet place) answer) := by
  cases args with
  | nil =>
    rw [run_command_error rfl] at h
    obtain ⟨rfl, rfl⟩ := runs_done_iff.mp h
    exact .inl ⟨by simp, _, rfl, by simp⟩
  | cons target rest =>
    rw [run_command_ok rfl, perform] at h
    obtain ⟨r, hr, rfl⟩ := runs_map_iff.mp h
    rw [run_runCd] at hr
    cases hplace : cdTarget target dir with
    | error f =>
      rw [hplace] at hr
      obtain ⟨rfl, rfl⟩ := runs_done_iff.mp hr
      refine .inl ⟨by simp, f, rfl, ?_⟩
      rintro e rfl
      rw [cdTarget] at hplace
      split at hplace
      · split at hplace <;> cases hplace
      · cases hplace
    | ok place =>
      rw [hplace] at hr
      obtain ⟨isDirectory, es₁, rfl, h₁⟩ := runs_ask_iff.mp hr
      cases isDirectory with
      | false =>
        obtain ⟨rfl, rfl⟩ := runs_done_iff.mp h₁
        exact .inl ⟨List.forall_mem_singleton.mpr (by simp), _, rfl, by simp⟩
      | true =>
        obtain ⟨_, es₂, rfl, h₂⟩ := runs_ask_iff.mp h₁
        obtain ⟨answer, rfl, rfl⟩ := runs_announce h₂
        exact .inr ⟨target, rest, place, answer, rfl, hplace, rfl, rfl⟩

end Builtin

namespace Shell

open Program Builtin

/-! ## Invocations -/

/-- An invocation of `cd` has come to a place: it was asked for, and the
file system said that there is a directory. -/
structure Arrived (i : Invocation) (dir : Path) (es : List Exchange) (place : Path) : Prop where
  name : i.name = Builtin.Name.cd.text
  target : ∃ target rest, i.args = target :: rest ∧ cdTarget target dir = .ok place
  isDirectory : ⟨.files (.isDirectory place), true⟩ ∈ es

/-- An invocation is of `cd`, and it succeeds. -/
def IsMove (i : Invocation) (result : Except Failure ExitCode) : Prop :=
  i.name = Builtin.Name.cd.text ∧ result = .ok 0

variable {i : Invocation} {dir : Path} {es : List Exchange} {r : Except Failure ExitCode × Path}

theorem directory_of_finish {redirect : Option Redirect} {out : Outcome}
    (h : (finish redirect out).Runs es r) : r.2 = out.directory := by
  unfold finish at h
  split at h
  · obtain ⟨-, rfl⟩ := runs_done_iff.mp h
    rfl
  · obtain ⟨_, answer, _, -, hend, -⟩ := runs_bind_iff.mp h
    obtain ⟨-, rfl⟩ := runs_done_iff.mp hend
    cases answer <;> rfl

/-- A command's place is where its invocation leaves the session. -/
theorem exists_runs_command {n : Builtin.Name} (hname : i.name = n.text)
    (h : (run Builtin.table i dir).Runs es r) :
    ∃ es₁ out, ((command n i.args).run dir).Runs es₁ out ∧ es₁ ⊆ es ∧ r.2 = out.directory ∧
      (n.redirectable = false → r.1 = out.result) := by
  cases hn : n.redirectable with
  | true =>
    obtain ⟨name, args, redirect⟩ := i
    obtain rfl : name = n.text := hname
    rw [run_eq_bind hn] at h
    obtain ⟨es₁, out, es₂, hrun, hfinish, rfl⟩ := runs_bind_iff.mp h
    exact ⟨es₁, out, hrun, List.subset_append_left _ _, directory_of_finish hfinish, nofun⟩
  | false =>
    obtain ⟨rest, out, hrun, rfl, rfl⟩ := runs_of_not_redirectable hname hn h
    exact ⟨rest, out, hrun, List.subset_append_right _ _, rfl, fun _ => rfl⟩

/-- An invocation arrives if it is a move, and stays if it is none. -/
theorem whereabouts_of_runs (h : (run Builtin.table i dir).Runs es r) :
    (IsMove i r.1 → Arrived i dir es r.2) ∧ (¬ IsMove i r.1 → r.2 = dir) := by
  cases hfind : Builtin.table.find? i.name with
  | none =>
    rw [run, hfind] at h
    obtain ⟨-, rfl⟩ := runs_done_iff.mp h
    exact ⟨fun hmove => (by cases hmove.2), fun _ => rfl⟩
  | some make =>
    obtain ⟨n, hname, -⟩ := exists_of_find?_table hfind
    obtain ⟨es₁, out, hrun, hsub, hdir, hresult⟩ := exists_runs_command hname h
    by_cases hn : n = .cd
    · subst hn
      rw [IsMove, hresult rfl, hdir]
      rcases runs_command_cd hrun with
        ⟨-, f, rfl, -⟩ | ⟨target, rest, place, answer, hargs, hplace, rfl, rfl⟩
      · exact ⟨fun hmove => (by cases hmove.2), fun _ => rfl⟩
      · -- the session is moved behind the line, so a refused line leaves it where it was
        cases answer with
        | error e => exact ⟨fun hmove => (by cases hmove.2), fun _ => rfl⟩
        | ok u =>
          cases u
          exact ⟨fun _ => ⟨hname, ⟨target, rest, hargs, hplace⟩, hsub List.mem_cons_self⟩,
            fun hno => absurd ⟨hname, rfl⟩ hno⟩
    · refine ⟨fun hmove => ?_, fun _ => hdir.trans (directory_of_runs hn hrun)⟩
      exact absurd (Name.text_injective (hname.symm.trans hmove.1)) hn

/-! ## Segments -/

/-- A segment is a `cd` that succeeds when it is run from a scene. -/
def Moves (w : World φ κ) (s : Scene φ κ) (dir : Path) (entry : Except Failure Invocation) : Prop :=
  ∃ i, entry = .ok i ∧ IsMove i ((run Builtin.table i dir).run w s).value.1

/-- A segment that moves the session is a `cd` that arrives where the
session is then; any other leaves the session where it was. -/
theorem whereabouts_runEntry (w : World φ κ) (s : Scene φ κ) (dir : Path)
    (entry : Except Failure Invocation) :
    let segment := (runEntry Builtin.table entry dir).run w s
    (Moves w s dir entry →
      ∃ i, entry = .ok i ∧ Arrived i dir segment.exchanges segment.value.2) ∧
    (¬ Moves w s dir entry → segment.value.2 = dir) := by
  intro segment
  cases entry with
  | error f =>
    refine ⟨fun ⟨i, hi, _⟩ => (nomatch hi), fun _ => ?_⟩
    simp only [segment, runEntry, run_bind_value]
    rfl
  | ok i =>
    obtain ⟨harrived, hstays⟩ := whereabouts_of_runs (runs_run w (run Builtin.table i dir) s)
    have hplace : segment.value.2 = ((run Builtin.table i dir).run w s).value.2 := by
      simp only [segment, runEntry, run_bind_value]
      rfl
    refine ⟨?_, fun hno => ?_⟩
    · rintro ⟨_, ⟨⟩, hmove⟩
      obtain ⟨hname, htarget, hasked⟩ := harrived hmove
      refine ⟨i, rfl, hname, hplace ▸ htarget, ?_⟩
      rw [hplace]
      simp only [segment, runEntry, run_bind_exchanges]
      exact List.mem_append_left _ hasked
    · rw [hplace]
      exact hstays fun hmove => hno ⟨i, rfl, hmove⟩

/-! ## Sessions -/

section

variable (table : CommandTable) (lines : List Text) (line : Text) (start : Path)

theorem executeAll_append (lines' : List Text) :
    executeAll table (lines ++ lines') start =
      executeAll table lines start >>= executeAll table lines' := by
  induction lines generalizing start with
  | nil => rfl
  | cons line rest ih =>
    rw [List.cons_append, executeAll, executeAll, bind_assoc]
    exact congrArg _ (funext fun r => ih r.2)

/-- A row of one segment is that segment. -/
theorem runEntries_singleton (entry : Except Failure Invocation) (last : ExitCode) (dir : Path) :
    runEntries table [entry] last dir = runEntry table entry dir := bind_done _

/-- A session that is one segment further has run that segment. -/
theorem executeUpTo_succ {count : Nat} {entry : Except Failure Invocation}
    (hentry : (Line.invocations line)[count]? = some entry) :
    executeUpTo table lines line (count + 1) start =
      executeUpTo table lines line count start >>= fun d =>
        runEntry table entry d >>= fun r => .done r.2 := by
  have htake : (Line.invocations line).take (count + 1) =
      (Line.invocations line).take count ++ [entry] := by
    rw [List.take_add_one, hentry, Option.toList_some]
  simp only [executeUpTo, htake, runEntries_append, runEntries_singleton, bind_assoc,
    pure_eq_done, done_bind]

variable (w : World φ κ) (s : Scene φ κ)

theorem value_executeUpTo_zero :
    ((executeUpTo table lines line 0 start).run w s).value =
      ((executeAll table lines start).run w s).value := by
  simp only [executeUpTo, List.take_zero, run_bind_value]
  rfl

/-- A line leaves the session where its last segment did. -/
theorem value_executeAll_concat :
    ((executeAll table (lines ++ [line]) start).run w s).value =
      ((executeUpTo table lines line (Line.invocations line).length start).run w s).value := by
  rw [executeAll_append, executeUpTo, List.take_length]
  simp only [executeAll, run_bind_value]
  exact congrArg Prod.snd (value_execute w table line _ _)

end

/-- In a session with the eleven commands, on any file system and any
console, each segment takes the session from one directory to the next. If
the segment is a `cd` and its run succeeds, that is the directory it asks
for, and during the segment the file system has answered that it is one;
if not, it is the directory the session was in. From line to line the
session is where the last segment left it. -/
theorem session_moves_by_cd (w : World φ κ) (lines : List Text) (line : Text) (start : Path)
    (s : Scene φ κ) :
    let upTo count := (executeUpTo Builtin.table lines line count start).run w s
    (∀ count entry, (Line.invocations line)[count]? = some entry →
      let before := upTo count
      let segment := (runEntry Builtin.table entry before.value).run w before.scene
      let after := upTo (count + 1)
      (after.value = segment.value.2 ∧ after.scene = segment.scene ∧
        after.exchanges = before.exchanges ++ segment.exchanges) ∧
      (Moves w before.scene before.value entry →
        ∃ i, entry = .ok i ∧ Arrived i before.value segment.exchanges after.value) ∧
      (¬ Moves w before.scene before.value entry → after.value = before.value)) ∧
    (upTo 0).value = ((executeAll Builtin.table lines start).run w s).value ∧
    ((executeAll Builtin.table (lines ++ [line]) start).run w s).value =
      (upTo (Line.invocations line).length).value := by
  intro upTo
  refine ⟨fun count entry hentry => ?_, value_executeUpTo_zero _ _ _ _ w s,
    value_executeAll_concat _ _ _ _ w s⟩
  intro before segment after
  have hafter : after.value = segment.value.2 ∧ after.scene = segment.scene ∧
      after.exchanges = before.exchanges ++ segment.exchanges := by
    simp only [after, upTo, executeUpTo_succ Builtin.table lines line start hentry, run_bind_value,
      run_bind_scene, run_bind_exchanges, run_done, List.append_nil]
    exact ⟨rfl, rfl, rfl⟩
  rw [hafter.1]
  exact ⟨⟨rfl, hafter.2⟩, whereabouts_runEntry w before.scene before.value entry⟩

/-- On a console with room for nine bytes, the second of two segments fails
to say that it has moved the session, and has not. -/
theorem session_moves_by_cd_unsaid :
    let w := Host.world Host.fileSystem Console.screen
    let s : Scene Host Console.Screen :=
      ⟨⟨.directory 0 [(['d'], .directory 0 [])], .inTree []⟩, { room := some 9 }⟩
    let upTo count := (executeUpTo Builtin.table [] "pwd | cd d".toList count Path.root).run w s
    (upTo 2).value = (upTo 1).value := by
  intro w s upTo
  have hentry : (Line.invocations "pwd | cd d".toList)[1]? =
      some (.ok ⟨Builtin.Name.cd.text, [['d']], none⟩) := by decide
  obtain ⟨_, _, hstays⟩ :=
    (session_moves_by_cd w [] "pwd | cd d".toList Path.root s).1 1 _ hentry
  have hrefused : ((run Builtin.table ⟨Builtin.Name.cd.text, [['d']], none⟩ (upTo 1).value).run w
      (upTo 1).scene).value.1 = .error (.console Console.full) := by decide
  have hunmoved : ¬ Moves w (upTo 1).scene (upTo 1).value
      (.ok ⟨Builtin.Name.cd.text, [['d']], none⟩) := by
    rintro ⟨_, ⟨⟩, _, hok⟩
    exact nomatch hrefused.symm.trans hok
  exact hstays hunmoved

end Shell

end FileShell

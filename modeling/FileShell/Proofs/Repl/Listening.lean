/-
FileShell.Proofs.Repl.Listening — a session does what its lines say, up to
the line it stops at.

What a session hears is said on the lines as they are delivered, before
any of them is run:

* `deliveries` — the lines of an input, each with its backspaces applied
  and not trimmed; one that is not text is delivered as nothing.
* `stop` — the first delivery that is no text or says `exit`, if any.
* `heard` — the lines in front of it.

`steps_eq` is the simulation, an equality of programs: taking the lines
one by one is running those that are heard and not blank, as lines of a
shell, and then saying what is said at the stop. It is an induction on the
deliveries with one equation for each way a line can go. Trimming a line
before it is run makes no difference (`execute_trim`), since its segments
are trimmed anyway.

`run_follows_execute` brings this to the run in a world. The history file
is the only other thing that a session changes.
-/
import FileShell.Builtin.Table
import FileShell.Host.FileSystem
import FileShell.Proofs.Line.Padding
import FileShell.Proofs.Program.Running
import FileShell.Proofs.Shell.Session
import FileShell.Repl

namespace FileShell

variable {φ κ : Type}

namespace Shell

theorem execute_trim (table : CommandTable) (line : Text) (dir : Path) :
    execute table line.trim dir = execute table line dir := by
  rw [execute, Line.invocations_trim, execute]

/-- A blank line, run, is a flush. -/
theorem execute_of_isBlank (table : CommandTable) {line : Text} (h : line.IsBlank) (dir : Path) :
    execute table line dir = flush >>= fun _ => .done (0, dir) := by
  rw [execute, Line.invocations_of_isBlank h]
  rfl

end Shell

namespace Repl

open Program Shell

/-! ## What a session hears -/

/-- A line of input as it is delivered: untrimmed, and only if it is text. -/
def delivered? (raw : Bytes) : Option Text :=
  (Utf8.decode? raw).map fun _ => Erase.applied (Utf8.decodeLossy (Lines.chomp raw))

/-- The lines of an input as they are delivered. -/
def deliveries (input : Bytes) : List (Option Text) := (Lines.rawLines input).map delivered?

/-- Whether a session reads on after a delivery. -/
def goesOn : Option Text → Bool
  | none => false
  | some line => !isExit line.trim

/-- The lines in front of the stop. -/
def heard (ds : List (Option Text)) : List Text := (ds.takeWhile goesOn).filterMap id

/-- The delivery a session stops at; none if it reads to the end. -/
def stop (ds : List (Option Text)) : Option (Option Text) := ds.find? fun d => !goesOn d

/-- The lines that are run: those that are heard and not blank. -/
def commands (ds : List (Option Text)) : List Text := (heard ds).filter fun line => line.trim ≠ []

/-- What a session says at its stop. -/
def lastWords : Option (Option Text) → Text
  | some (some _) => farewell
  | _ => []

/-- The lines that a session remembers: those in front of the stop, and
the one that told it to end. -/
def remembered (ds : List (Option Text)) : List Text :=
  (heard ds).map Text.trim ++
    match stop ds with
    | some (some line) => [line.trim]
    | _ => []

section

variable {d : Option Text} {line : Text} (ds : List (Option Text))

theorem heard_cons_of_goesOn (h : goesOn (some line) = true) :
    heard (some line :: ds) = line :: heard ds := by
  simp [heard, h]

theorem heard_cons_of_stop (h : goesOn d = false) : heard (d :: ds) = [] := by
  simp [heard, h]

theorem stop_cons_of_goesOn (h : goesOn d = true) : stop (d :: ds) = stop ds := by
  simp [stop, h]

theorem stop_cons_of_stop (h : goesOn d = false) : stop (d :: ds) = some d := by
  simp [stop, h]

end

/-- What follows the stop is not heard. -/
theorem heard_append {front : List (Option Text)} (h : ∃ d ∈ front, goesOn d = false)
    (rest : List (Option Text)) : heard (front ++ rest) = heard front := by
  induction front with
  | nil => simp at h
  | cons d front ih =>
    rw [List.cons_append]
    cases hd : goesOn d with
    | false => rw [heard_cons_of_stop _ hd, heard_cons_of_stop _ hd]
    | true =>
      have hfront : ∃ d ∈ front, goesOn d = false := by simpa [hd] using h
      cases d with
      | none => cases hd
      | some line => rw [heard_cons_of_goesOn _ hd, heard_cons_of_goesOn _ hd, ih hfront]

theorem stop_append {front : List (Option Text)} (h : ∃ d ∈ front, goesOn d = false)
    (rest : List (Option Text)) : stop (front ++ rest) = stop front := by
  have hfound : (front.find? fun d => !goesOn d).isSome = true := by
    rw [List.find?_isSome]
    simpa using h
  rw [stop, List.find?_append, Option.or_of_isSome hfound, stop]

/-! ## One line -/

section

variable (table : CommandTable) {raw : Bytes} {line : Text} (s : State)

theorem typed?_eq (raw : Bytes) : typed? raw = (delivered? raw).map Text.trim := by
  rw [typed?, delivered?, Option.map_map]
  rfl

theorem step_unreadable (h : delivered? raw = none) :
    step table raw s = .done (.stopped (.error .unreadable) s) := by
  rw [step, typed?_eq, h]
  rfl

theorem step_blank (h : delivered? raw = some line) (hblank : line.trim = []) :
    step table raw s = .done (.more s) := by
  rw [step, typed?_eq, h]
  simp [hblank]

/-- What a session that was told to end makes of the console's answer. -/
def ended : Except IoError Unit → Except Error Unit
  | .ok () => .ok ()
  | .error e => .error (.console e)

theorem step_exit (h : delivered? raw = some line) (hexit : isExit line.trim = true) :
    step table raw s =
      .ask (.print farewell.bytes) fun answer =>
        .done (.stopped (ended answer) { s with history := s.history.add line.trim }) := by
  have hne : line.trim ≠ [] := by
    intro he
    rw [he] at hexit
    exact absurd hexit (by decide)
  rw [step, typed?_eq, h]
  simp only [Option.map_some, hne, if_false, hexit, if_true]
  refine congrArg (Program.ask _) (funext fun answer => ?_)
  cases answer <;> rfl

theorem step_command (h : delivered? raw = some line) (hne : line.trim ≠ [])
    (hexit : isExit line.trim = false) :
    step table raw s =
      execute table line s.directory >>= fun r =>
        .done (.more ⟨r.2, s.history.add line.trim⟩) := by
  rw [step, typed?_eq, h]
  simp only [Option.map_some, hne, if_false, hexit, execute_trim]
  rfl

end

/-! ## All lines -/

/-- What is done at the stop. -/
def ending : Option (Option Text) → Program (Except Error Unit)
  | none => .done (.ok ())
  | some none => .done (.error .unreadable)
  | some (some _) => .ask (.print farewell.bytes) fun answer => .done (ended answer)

/-- Taking lines one by one is running those that are heard and not blank,
and then what is done at the stop. -/
theorem steps_eq (table : CommandTable) (raws : List Bytes) (dir : Path) (h : History) :
    steps table raws ⟨dir, h⟩ =
      executeAll table (commands (raws.map delivered?)) dir >>= fun d =>
        ending (stop (raws.map delivered?)) >>= fun result =>
          .done (result, ⟨d, (remembered (raws.map delivered?)).foldl History.add h⟩) := by
  induction raws generalizing dir h with
  | nil => rfl
  | cons raw rest ih =>
    rw [List.map_cons, steps]
    cases hraw : delivered? raw with
    | none =>
      have hstop : goesOn none = false := rfl
      rw [step_unreadable table _ hraw, commands, remembered, heard_cons_of_stop _ hstop,
        stop_cons_of_stop _ hstop]
      rfl
    | some line =>
      cases hexit : isExit line.trim with
      | true =>
        have hstop : goesOn (some line) = false := by simp [goesOn, hexit]
        rw [step_exit table _ hraw hexit, commands, remembered, heard_cons_of_stop _ hstop,
          stop_cons_of_stop _ hstop]
        rfl
      | false =>
        have hon : goesOn (some line) = true := by simp [goesOn, hexit]
        rw [remembered, commands, heard_cons_of_goesOn _ hon, stop_cons_of_goesOn _ hon]
        by_cases hne : line.trim = []
        · rw [step_blank table _ hraw hne, done_bind]
          dsimp only
          rw [ih]
          simp [commands, remembered, hne, History.add]
        · rw [step_command table _ hraw hne hexit, bind_assoc,
            List.filter_cons_of_pos (by simpa using hne), executeAll, bind_assoc]
          refine congrArg _ (funext fun r => ?_)
          exact ih r.2 _

/-! ## The history file -/

section

variable (w : World φ κ) (s : Scene φ κ)

/-- Reading the history changes nothing and shows nothing. -/
theorem run_loadHistory (history : Option Path) :
    ((loadHistory history).run w s).scene = s ∧ (loadHistory history).shown w s = [] := by
  unfold loadHistory
  split
  · exact ⟨rfl, rfl⟩
  · simp only [Program.request, Program.note, ask_bind, done_bind, run_ask, shown_ask, World.answer,
      World.shownBy, List.nil_append]
    split
    · exact ⟨rfl, rfl⟩
    · split <;> exact ⟨rfl, rfl⟩

/-- Putting the history away changes at most its file, after an ordinary
end, and shows nothing. -/
theorem run_finish (history : Option Path) (result : Except Error Unit) (h : History) :
    let last := (finish history result h).run w s
    (last.scene = s ∨ ∃ path content, history = some path ∧ result = .ok () ∧
      last.scene = { s with files := (w.saveHistory path content s.files).2 }) ∧
      (finish history result h).shown w s = [] := by
  intro last
  unfold last finish saveHistory
  split
  · split
    · exact ⟨.inl rfl, rfl⟩
    · next path =>
      split
      · refine ⟨.inr ⟨path, h.content, rfl, rfl, ?_⟩, ?_⟩
        · simp only [Program.request, Program.note, ask_bind, done_bind, run_ask, World.answer]
          split <;> rfl
        · simp only [Program.request, Program.note, ask_bind, done_bind, shown_ask, World.answer,
            World.shownBy, List.nil_append]
          split <;> rfl
      · exact ⟨.inl rfl, rfl⟩
  · exact ⟨.inl rfl, rfl⟩

/-- What is said at the stop is all that is done there. -/
theorem run_ending (d : Option (Option Text)) :
    let last := (ending d).run w s
    last.scene = { s with console := (w.console.write (lastWords d).bytes s.console).2 } ∧
      (ending d).shown w s = w.console.accepted (lastWords d).bytes s.console ∧
      (last.value = .ok () ↔ d = none ∨
        (∃ line, d = some (some line)) ∧ (w.console.write farewell.bytes s.console).1 = .ok ()) := by
  intro last
  unfold last
  match d with
  | none => exact ⟨rfl, rfl, by simp [ending]⟩
  | some none => exact ⟨rfl, rfl, by simp [ending]⟩
  | some (some line) =>
    rw [ending, run_ask, shown_ask]
    refine ⟨rfl, List.append_nil _, ?_⟩
    simp only [run_done, World.answer]
    cases hanswer : (w.console.write farewell.bytes s.console).1 <;> simp [ended]

end

/-! ## The session -/

/-- A session is its lines, its last words and its history file. -/
theorem run_eq (table : CommandTable) (history : Option Path) (input : Bytes) (dir : Path) :
    run table history input dir =
      loadHistory history >>= fun h =>
        executeAll table (commands (deliveries input)) dir >>= fun d =>
          ending (stop (deliveries input)) >>= fun result =>
            finish history result ((remembered (deliveries input)).foldl History.add h) >>= fun _ =>
              .done (result, d) := by
  rw [run]
  refine congrArg _ (funext fun h => ?_)
  rw [steps_eq]
  simp only [bind_assoc, done_bind]
  rfl

/-- Only what is heard up to the stop matters. -/
theorem run_congr (table : CommandTable) (history : Option Path) {input input' : Bytes} (dir : Path)
    (hheard : heard (deliveries input) = heard (deliveries input'))
    (hstop : stop (deliveries input) = stop (deliveries input')) :
    run table history input dir = run table history input' dir := by
  rw [run_eq, run_eq, commands, commands, remembered, remembered, hheard, hstop]

/-- A session in a world: its lines, then its last words, then its history. -/
theorem run_in_world (w : World φ κ) (table : CommandTable) (history : Option Path)
    (input : Bytes) (dir : Path) (s : Scene φ κ) :
    let lines := executeAll table (commands (deliveries input)) dir
    let before := lines.run w s
    let last := (ending (stop (deliveries input))).run w before.scene
    let session := run table history input dir
    ∃ h : History,
      (session.run w s).value = (last.value, before.value) ∧
      (session.run w s).scene = ((finish history last.value h).run w last.scene).scene ∧
      session.shown w s =
        lines.shown w s ++ (ending (stop (deliveries input))).shown w before.scene := by
  intro lines before last session
  obtain ⟨hload, hloadShown⟩ := run_loadHistory w s history
  let h := (remembered (deliveries input)).foldl History.add ((loadHistory history).run w s).value
  have hfinish : (finish history last.value h).shown w last.scene = [] :=
    (run_finish w last.scene history last.value h).2
  refine ⟨h, ?_, ?_, ?_⟩
  · simp only [session, run_eq, run_bind_value, hload]
    rfl
  · simp only [session, run_eq, run_bind_scene, hload]
    rfl
  · simp only [session, run_eq, shown_bind, hload, hloadShown, List.nil_append]
    rw [show (finish history _ _).shown w _ = [] from hfinish]
    simp [lines, before]

/-- A session on a whole input, for every table of commands, file system and
console. Take the lines as they are delivered, up to the first that is no
text or says `exit`. Running those of them that are not blank, untrimmed
and in order, leads to the same directory, the same console after the last
words, which are said only where an `exit` stopped the session, and the
same files, but for the history file after an ordinary end. (A blank line
that is run only flushes.) The session ends well exactly at the end of the
input or where the console took the last words. Inputs that agree up to a
stop are the same session. -/
theorem run_follows_execute (w : World φ κ) (table : CommandTable) (history : Option Path)
    (input : Bytes) (dir : Path) (s : Scene φ κ) :
    let ds := deliveries input
    let lines := executeAll table (commands ds) dir
    let before := lines.run w s
    let session := run table history input dir
    let after := session.run w s
    after.value.2 = before.value ∧
    session.shown w s =
      lines.shown w s ++ w.console.accepted (lastWords (stop ds)).bytes before.scene.console ∧
    after.scene.console =
      (w.console.write (lastWords (stop ds)).bytes before.scene.console).2 ∧
    (after.scene.files = before.scene.files ∨ ∃ path content, history = some path ∧
      after.value.1 = .ok () ∧
      after.scene.files = (w.saveHistory path content before.scene.files).2) ∧
    (after.value.1 = .ok () ↔ stop ds = none ∨ (∃ line, stop ds = some (some line)) ∧
      (w.console.write farewell.bytes before.scene.console).1 = .ok ()) ∧
    (∀ (line : Text) (d : Path), line.IsBlank →
      execute table line d = flush >>= fun _ => .done (0, d)) ∧
    (∀ input' front, front <+: ds → front <+: deliveries input' → (∃ d ∈ front, goesOn d = false) →
      run table history input' dir = session) := by
  intro ds lines before session after
  obtain ⟨h, hvalue, hscene, hshown⟩ := run_in_world w table history input dir s
  obtain ⟨hlast, hlastShown, hok⟩ := run_ending w before.scene (stop ds)
  have hfinish := (run_finish w ((ending (stop ds)).run w before.scene).scene history
    ((ending (stop ds)).run w before.scene).value h).1
  rw [← hscene] at hfinish
  refine ⟨by rw [hvalue], by rw [hshown, hlastShown], ?_, ?_, by rw [hvalue]; exact hok,
    fun line d hblank => execute_of_isBlank table hblank d, ?_⟩
  · rcases hfinish with hsame | ⟨_, _, _, _, hsaved⟩
    · rw [hsame, hlast]
    · rw [hsaved, hlast]
  · rcases hfinish with hsame | ⟨path, content, hhistory, hend, hsaved⟩
    · left
      rw [hsame, hlast]
    · right
      refine ⟨path, content, hhistory, by rw [hvalue]; exact hend, ?_⟩
      rw [hsaved, hlast]
  · rintro input' front ⟨rest, hrest⟩ ⟨rest', hrest'⟩ hfront
    refine run_congr table history dir ?_ ?_
    · rw [← hrest', heard_append hfront, ← heard_append hfront rest, hrest]
    · rw [← hrest', stop_append hfront, ← stop_append hfront rest, hrest]

/-- What comes after the word, in whatever case and with whatever space
around it, is never run; a line with a tab and a space only flushes. -/
theorem run_follows_execute_past_exit :
    run Builtin.table none (Utf8.encode "cd\r\n\t Exit \nrm a\n".toList) Path.root =
        run Builtin.table none (Utf8.encode "cd\r\n\t Exit ".toList) Path.root ∧
      execute Builtin.table ['\t', ' '] Path.root = (flush >>= fun _ => .done (0, Path.root)) := by
  have hshort : deliveries (Utf8.encode "cd\r\n\t Exit ".toList) =
      [some "cd".toList, some "\t Exit ".toList] := by decide +kernel
  have hlong : deliveries (Utf8.encode "cd\r\n\t Exit \nrm a\n".toList) =
      [some "cd".toList, some "\t Exit ".toList, some "rm a".toList] := by decide +kernel
  obtain ⟨_, _, _, _, _, hblank, hagree⟩ := run_follows_execute
    (Host.world Host.fileSystem Console.screen) Builtin.table none
    (Utf8.encode "cd\r\n\t Exit ".toList) Path.root ⟨⟨.directory 0 [], .inTree []⟩, {}⟩
  refine ⟨?_, hblank ['\t', ' '] Path.root (by decide)⟩
  have hfront : [some "cd".toList, some "\t Exit ".toList] <+:
      deliveries (Utf8.encode "cd\r\n\t Exit \nrm a\n".toList) :=
    hlong ▸ ⟨[some "rm a".toList], rfl⟩
  exact hagree _ _ (hshort ▸ List.prefix_rfl) hfront ⟨some "\t Exit ".toList, by simp, by decide⟩

end Repl

end FileShell

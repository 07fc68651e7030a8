/-
FileShell.Proofs.Shell.Journal — the record of the session's moves.

`cd` puts a move on record, says its line, and then the session is moved.
The line stands between the two, so a console that refuses it leaves a
record of a move that is not made. Such a `cd` is `unsaid`; it is the only
way in which the records of a session and its moves come apart.

A session is a row of legs (`sessionLegs`): a segment, and the directory
and the scene it is run from. What is on record is read off leg by leg
(`infos_leg`) and brought to sessions of any length by induction on the
segments of a line and on the lines (`infos_runEntries`,
`infos_executeAll`). If nothing is unsaid, following the records leads from
the directory the session started in to the one it ends in.
-/
import FileShell.Proofs.Program.Printing
import FileShell.Proofs.Shell.Routing
import FileShell.Proofs.Shell.Whereabouts

namespace FileShell

variable {φ κ : Type}

/-! ## Records -/

/-- The record of level `info` that an exchange makes, if it makes one. -/
def Exchange.info? : Exchange → Option Log.Record
  | ⟨.note r, _⟩ => if r.level = .info then some r else none
  | _ => none

/-- The records of level `info` in a row of exchanges. -/
def infos (exchanges : List Exchange) : List Log.Record := exchanges.filterMap Exchange.info?

theorem infos_append (es es' : List Exchange) : infos (es ++ es') = infos es ++ infos es' :=
  List.filterMap_append

/-- The directory that records of moves lead to, each starting where the
one before it ended. -/
def Log.follow : Path → List Log.Record → Option Path
  | dir, [] => some dir
  | dir, .directoryChanged before after :: rest => if before = dir then follow after rest else none
  | _, _ :: _ => none

theorem Log.follow_append (dir : Path) (rs rs' : List Log.Record) :
    Log.follow dir (rs ++ rs') = (Log.follow dir rs).bind fun place => Log.follow place rs' := by
  induction rs generalizing dir with
  | nil => rfl
  | cons r rs ih =>
    cases r with
    | directoryChanged before after =>
      simp only [List.cons_append, Log.follow]
      split
      · exact ih after
      · rfl
    | _ => rfl

namespace Program

variable {α : Type}

/-- A program that makes no record of level `info`, however it is answered. -/
def Unrecorded (p : Program α) : Prop := p.Keeps (fun e => e.info? = none) fun _ => True

theorem Unrecorded.infos {p : Program α} (hp : p.Unrecorded) (w : World φ κ) (s : Scene φ κ) :
    infos (p.run w s).exchanges = [] :=
  List.filterMap_eq_nil_iff.mpr (keeps_run w hp s).1

end Program

namespace Shell

open Program Builtin

/-! ## What makes no record -/

theorem unrecorded_settle (r : Except Failure ExitCode) : (settle r).Unrecorded := by
  cases r with
  | ok code => trivial
  | error f =>
    refine fun answer => ⟨rfl, ?_⟩
    cases answer with
    | ok u => trivial
    | error e => exact fun _ => ⟨rfl, trivial⟩

theorem unrecorded_flush : flush.Unrecorded := by
  rw [flush_eq]
  refine fun answer => ⟨rfl, ?_⟩
  cases answer with
  | ok u => trivial
  | error e => exact fun _ => ⟨rfl, trivial⟩

theorem unrecorded_finish (redirect : Option Redirect) (out : Outcome) :
    (finish redirect out).Unrecorded := by
  cases hout : out.result with
  | error f =>
    rw [finish_failed hout]
    trivial
  | ok code =>
    cases redirect with
    | none =>
      rw [finish_printing hout]
      exact fun _ => ⟨rfl, trivial⟩
    | some r =>
      rw [finish_writing hout]
      exact fun _ => ⟨rfl, trivial⟩

/-- Only `cd` makes records of level `info`. -/
theorem unrecorded_command {n : Builtin.Name} (hn : n ≠ .cd) (args : List Text) (dir : Path) :
    ((command n args).run dir).Unrecorded := by
  refine keeps_command_of (fun b e hb he => ?_) (fun _ _ _ _ => trivial) (fun _ => trivial) args
  obtain ⟨r, answer⟩ := e
  cases he with
  | cdNote => exact absurd hb.symm hn
  | _ => rfl

theorem infos_remarks (i : Invocation) : infos (remarks i) = [] := by
  unfold remarks
  cases i.redirect <;> rfl

/-! ## Legs -/

/-- A segment of a session, with the directory and the scene it is run from. -/
structure Leg (φ κ : Type) where
  entry : Except Failure Invocation
  dir : Path
  scene : Scene φ κ

namespace Leg

variable (w : World φ κ) (l : Leg φ κ)

/-- The run of the segment. -/
def run : Run φ κ (ExitCode × Path) := (runEntry Builtin.table l.entry l.dir).run w l.scene

/-- The directory the session is in after the segment. -/
def after : Path := (l.run w).value.2

/-- The result of a `cd`, for the segments that are one. -/
def cdResult? : Option (Except Failure ExitCode) :=
  match l.entry with
  | .ok i =>
    if i.name = Builtin.Name.cd.text then
      some ((Shell.run Builtin.table i l.dir).run w l.scene).value.1
    else none
  | .error _ => none

/-- Whether the segment is a `cd` that succeeds. -/
def moved : Bool :=
  match l.cdResult? w with
  | some (.ok 0) => true
  | _ => false

/-- Whether the segment is a `cd` whose line the console refuses. -/
def unsaid : Bool :=
  match l.cdResult? w with
  | some (.error (.console _)) => true
  | _ => false

/-- The directory that the segment asks for, if it is a `cd`. -/
def HeadsFor (place : Path) : Prop :=
  ∃ i target rest, l.entry = .ok i ∧ i.args = target :: rest ∧ cdTarget target l.dir = .ok place

end Leg

/-- The legs of a row of segments. -/
def legs (w : World φ κ) : List (Except Failure Invocation) → Path → Scene φ κ → List (Leg φ κ)
  | [], _, _ => []
  | entry :: rest, dir, s =>
    let leg : Leg φ κ := ⟨entry, dir, s⟩
    leg :: legs w rest (leg.after w) (leg.run w).scene

/-- The legs of a session. -/
def sessionLegs (w : World φ κ) : List Text → Path → Scene φ κ → List (Leg φ κ)
  | [], _, _ => []
  | line :: rest, dir, s =>
    let r := (execute Builtin.table line dir).run w s
    legs w (Line.invocations line) dir s ++ sessionLegs w rest r.value.2 r.scene

section

variable (w : World φ κ)

theorem infos_run_of_ne_cd {i : Invocation} (hname : i.name ≠ Builtin.Name.cd.text) (dir : Path)
    (s : Scene φ κ) : infos ((run Builtin.table i dir).run w s).exchanges = [] := by
  obtain ⟨name, args, redirect⟩ := i
  cases hfind : Builtin.table.find? name with
  | none =>
    simp only [run, hfind]
    rfl
  | some make =>
    obtain ⟨n, rfl, -⟩ := exists_of_find?_table hfind
    have hn : n ≠ .cd := fun hn => hname (congrArg Builtin.Name.text hn)
    have hown := (unrecorded_command hn args dir).infos w s
    cases hredirectable : n.redirectable with
    | true =>
      rw [run_eq_bind hredirectable, run_bind, infos_append, hown]
      exact (unrecorded_finish redirect _).infos w _
    | false => rw [run_of_not_redirectable w hredirectable, infos_append, infos_remarks, hown]; rfl

/-- How a `cd` goes, with what is on record of it. -/
theorem infos_run_cd (args : List Text) (redirect : Option Redirect) (dir : Path) (s : Scene φ κ) :
    let r := (run Builtin.table ⟨Builtin.Name.cd.text, args, redirect⟩ dir).run w s
    ((∃ f, r.value = (.error f, dir) ∧ ∀ e, f ≠ .console e) ∧ infos r.exchanges = []) ∨
      ∃ target rest place answer, args = target :: rest ∧ cdTarget target dir = .ok place ∧
        infos r.exchanges = [.directoryChanged dir place] ∧
        ⟨.print (Text.bytes ("Changed directory to: ".toList ++ place.text ++ ['\n'])), answer⟩
          ∈ r.exchanges ∧
        r.value = match answer with
          | .ok () => (.ok 0, place)
          | .error e => (.error (.console e), dir) := by
  intro r
  have hrun : r = _ := run_of_not_redirectable w (n := .cd) rfl args redirect dir s
  rw [hrun, infos_append, infos_remarks, List.nil_append]
  dsimp only
  rcases runs_command_cd (runs_run w ((command .cd args).run dir) s) with
    ⟨hquiet, f, hout, hf⟩ | ⟨target, rest, place, answer, hargs, hplace, hes, hout⟩
  · refine .inl ⟨⟨f, by rw [hout]; rfl, hf⟩, List.filterMap_eq_nil_iff.mpr fun e he => ?_⟩
    obtain ⟨request, answer⟩ := e
    cases request with
    | note record => exact absurd rfl (hquiet _ he record)
    | _ => rfl
  · refine .inr ⟨target, rest, place, answer, hargs, hplace, by rw [hes]; rfl, ?_, ?_⟩
    · rw [hes]
      simp
    · rw [hout]
      cases answer <;> rfl

theorem infos_run (l : Leg φ κ) :
    infos (l.run w).exchanges = match l.entry with
      | .error _ => []
      | .ok i => infos ((Shell.run Builtin.table i l.dir).run w l.scene).exchanges := by
  obtain ⟨entry, dir, s⟩ := l
  cases entry with
  | error f =>
    simp only [Leg.run, runEntry, run_bind_exchanges, infos_append,
      (unrecorded_settle (.error f)).infos w s]
    rfl
  | ok i =>
    simp only [Leg.run, runEntry, run_bind_exchanges, infos_append,
      (unrecorded_settle _).infos w _]
    exact List.append_nil _

theorem after_ok (i : Invocation) (dir : Path) (s : Scene φ κ) :
    Leg.after w ⟨.ok i, dir, s⟩ = ((run Builtin.table i dir).run w s).value.2 := by
  simp only [Leg.after, Leg.run, runEntry, run_bind_value]
  rfl

/-- What is on record of a leg. A `cd` whose line is refused has put down a
move that it does not make. -/
theorem infos_leg (l : Leg φ κ) :
    (l.moved w = true → infos (l.run w).exchanges = [.directoryChanged l.dir (l.after w)]) ∧
    (l.unsaid w = true → l.after w = l.dir ∧
      ∃ place, l.HeadsFor place ∧ infos (l.run w).exchanges = [.directoryChanged l.dir place]) ∧
    (l.moved w = false → l.unsaid w = false →
      l.after w = l.dir ∧ infos (l.run w).exchanges = []) := by
  rw [infos_run]
  obtain ⟨entry, dir, s⟩ := l
  have hstays : ¬ Moves w s dir entry → Leg.after w ⟨entry, dir, s⟩ = dir :=
    (whereabouts_runEntry w s dir entry).2
  cases entry with
  | error f => exact ⟨nofun, nofun, fun _ _ => ⟨hstays fun ⟨_, hi, _⟩ => (nomatch hi), rfl⟩⟩
  | ok i =>
    by_cases hname : i.name = Builtin.Name.cd.text
    · obtain ⟨name, args, redirect⟩ := i
      obtain rfl : name = _ := hname
      have hresult : Leg.cdResult? w ⟨.ok ⟨Builtin.Name.cd.text, args, redirect⟩, dir, s⟩ = some
          ((run Builtin.table ⟨Builtin.Name.cd.text, args, redirect⟩ dir).run w s).value.1 := by
        simp only [Leg.cdResult?, if_true]
      simp only [Leg.moved, Leg.unsaid, hresult, after_ok]
      rcases infos_run_cd w args redirect dir s with
        ⟨⟨f, hvalue, hf⟩, hinfos⟩ | ⟨target, rest, place, answer, hargs, hplace, hinfos, -, hvalue⟩
      · rw [hvalue, hinfos]
        cases f with
        | console e => exact absurd rfl (hf e)
        | _ => exact ⟨nofun, nofun, fun _ _ => ⟨rfl, rfl⟩⟩
      · rw [hvalue, hinfos]
        cases answer with
        | ok u => exact ⟨fun _ => rfl, nofun, nofun⟩
        | error e =>
          exact ⟨nofun, fun _ => ⟨rfl, place, ⟨_, target, rest, rfl, hargs, hplace⟩, rfl⟩, nofun⟩
    · have hnone : Leg.cdResult? w ⟨.ok i, dir, s⟩ = none := if_neg hname
      simp only [Leg.moved, Leg.unsaid, hnone]
      refine ⟨nofun, nofun, fun _ _ => ⟨hstays ?_, infos_run_of_ne_cd w hname dir s⟩⟩
      rintro ⟨_, ⟨⟩, hmove⟩
      exact hname hmove.1

/-- A move that is made is not unsaid. -/
theorem unsaid_of_moved {l : Leg φ κ} (hm : l.moved w = true) : l.unsaid w = false := by
  unfold Leg.moved at hm
  unfold Leg.unsaid
  rcases hresult : l.cdResult? w with _ | ⟨f | code⟩
  · rfl
  · rw [hresult] at hm
    cases hm
  · rfl

/-- From a leg without an unsaid move, what is on record leads on. -/
theorem follow_leg {l : Leg φ κ} (hsaid : l.unsaid w = false) :
    Log.follow l.dir (infos (l.run w).exchanges) = some (l.after w) := by
  obtain ⟨hmoved, -, hstayed⟩ := infos_leg w l
  cases hm : l.moved w with
  | true => rw [hmoved hm, Log.follow, if_pos rfl, Log.follow]
  | false =>
    obtain ⟨hafter, hnone⟩ := hstayed hm hsaid
    rw [hnone, hafter, Log.follow]

/-- A console that takes everything takes the line of a `cd`. -/
theorem unsaid_of_takesAll {l : Leg φ κ} (hcon : w.console.TakesAll l.scene.console) :
    l.unsaid w = false := by
  obtain ⟨entry, dir, s⟩ := l
  cases entry with
  | error f => rfl
  | ok i =>
    obtain ⟨name, args, redirect⟩ := i
    unfold Leg.unsaid Leg.cdResult?
    dsimp only
    by_cases hname : name = Builtin.Name.cd.text
    · subst hname
      have htaken := taken_of_takesAll w
        (run Builtin.table ⟨Builtin.Name.cd.text, args, redirect⟩ dir) hcon
      rw [if_pos rfl]
      rcases infos_run_cd w args redirect dir s with
        ⟨⟨f, hvalue, hf⟩, -⟩ | ⟨_, _, place, answer, -, -, -, hprint, hvalue⟩
      · rw [hvalue]
        cases f with
        | console e => exact absurd rfl (hf e)
        | _ => rfl
      · rw [hvalue]
        cases answer with
        | ok u => rfl
        | error e => cases htaken _ hprint
    · rw [if_neg hname]

/-! ## Records and moves of a row of legs -/

section

variable (ls : List (Leg φ κ))

/-- Each leg that moves and each unsaid one has one record. -/
theorem length_infos_legs :
    (ls.flatMap fun l => infos (l.run w).exchanges).length =
      (ls.filter (·.moved w)).length + (ls.filter (·.unsaid w)).length := by
  induction ls with
  | nil => rfl
  | cons l ls ih =>
    obtain ⟨hmoved, hunsaid, hstayed⟩ := infos_leg w l
    have hone : (infos (l.run w).exchanges).length =
        (if l.moved w then 1 else 0) + if l.unsaid w then 1 else 0 := by
      cases hm : l.moved w with
      | true => simp [hmoved hm, unsaid_of_moved w hm]
      | false =>
        cases hu : l.unsaid w with
        | true =>
          obtain ⟨-, place, -, hplace⟩ := hunsaid hu
          simp [hplace]
        | false => simp [(hstayed hm hu).2]
    rw [List.flatMap_cons, List.length_append, ih, hone, List.filter_cons, List.filter_cons]
    split <;> split <;> simp <;> omega

/-- The records are those of the moves exactly if nothing is unsaid. -/
theorem infos_legs_eq_iff :
    (ls.flatMap fun l => infos (l.run w).exchanges) =
        (ls.filter (·.moved w)).map (fun l => .directoryChanged l.dir (l.after w)) ↔
      ∀ l ∈ ls, l.unsaid w = false := by
  constructor
  · intro heq
    have hlength := congrArg List.length heq
    rw [length_infos_legs, List.length_map] at hlength
    have hnone : ls.filter (·.unsaid w) = [] := List.length_eq_zero_iff.mp (by omega)
    simpa [List.filter_eq_nil_iff] using hnone
  · intro hsaid
    induction ls with
    | nil => rfl
    | cons l ls ih =>
      obtain ⟨hl, hrest⟩ := List.forall_mem_cons.mp hsaid
      obtain ⟨hmoved, -, hstayed⟩ := infos_leg w l
      rw [List.flatMap_cons, ih hrest]
      cases hm : l.moved w with
      | true => rw [hmoved hm, List.filter_cons_of_pos hm]; rfl
      | false => rw [(hstayed hm hl).2, List.filter_cons_of_neg (by simp [hm])]; rfl

end

/-! ## Sessions -/

theorem infos_runEntries (entries : List (Except Failure Invocation)) (last : ExitCode)
    (dir : Path) (s : Scene φ κ) :
    infos ((runEntries Builtin.table entries last dir).run w s).exchanges =
      (legs w entries dir s).flatMap fun l => infos (l.run w).exchanges := by
  induction entries generalizing last dir s with
  | nil => rfl
  | cons entry rest ih =>
    rw [runEntries, run_bind_exchanges, infos_append, legs, List.flatMap_cons]
    exact congrArg _ (ih _ _ _)

theorem infos_executeAll (lines : List Text) (start : Path) (s : Scene φ κ) :
    infos ((executeAll Builtin.table lines start).run w s).exchanges =
      (sessionLegs w lines start s).flatMap fun l => infos (l.run w).exchanges := by
  induction lines generalizing start s with
  | nil => rfl
  | cons line rest ih =>
    rw [executeAll, run_bind_exchanges, infos_append, sessionLegs, List.flatMap_append]
    congr 1
    · simp only [execute_eq, run_bind_exchanges, infos_append, infos_runEntries,
        unrecorded_flush.infos w]
      exact List.append_nil _
    · exact ih _ _

theorem follow_legs (entries : List (Except Failure Invocation)) (last : ExitCode) (dir : Path)
    (s : Scene φ κ) (hsaid : ∀ l ∈ legs w entries dir s, l.unsaid w = false) :
    Log.follow dir ((legs w entries dir s).flatMap fun l => infos (l.run w).exchanges) =
      some ((runEntries Builtin.table entries last dir).run w s).value.2 := by
  induction entries generalizing last dir s with
  | nil => rfl
  | cons entry rest ih =>
    obtain ⟨hl, hrest⟩ := List.forall_mem_cons.mp hsaid
    rw [legs, List.flatMap_cons, Log.follow_append, follow_leg w hl, Option.bind_some,
      ih ((runEntry Builtin.table entry dir).run w s).value.1 _ _ hrest, runEntries, run_bind_value]
    rfl

theorem follow_sessionLegs (lines : List Text) (start : Path) (s : Scene φ κ)
    (hsaid : ∀ l ∈ sessionLegs w lines start s, l.unsaid w = false) :
    Log.follow start ((sessionLegs w lines start s).flatMap fun l => infos (l.run w).exchanges) =
      some ((executeAll Builtin.table lines start).run w s).value := by
  induction lines generalizing start s with
  | nil => rfl
  | cons line rest ih =>
    obtain ⟨hline, hrest⟩ := List.forall_mem_append.mp hsaid
    rw [sessionLegs, List.flatMap_append, Log.follow_append, follow_legs w _ 0 _ _ hline,
      Option.bind_some, ← value_execute, ih _ _ hrest, executeAll, run_bind_value]

theorem takesAll_legs {entries : List (Except Failure Invocation)} {dir : Path} {s : Scene φ κ}
    (hcon : w.console.TakesAll s.console) :
    ∀ l ∈ legs w entries dir s, w.console.TakesAll l.scene.console := by
  induction entries generalizing dir s with
  | nil => nofun
  | cons entry rest ih =>
    exact List.forall_mem_cons.mpr ⟨hcon, ih (shown_eq_flatten w _ hcon).2⟩

theorem takesAll_sessionLegs {lines : List Text} {start : Path} {s : Scene φ κ}
    (hcon : w.console.TakesAll s.console) :
    ∀ l ∈ sessionLegs w lines start s, w.console.TakesAll l.scene.console := by
  induction lines generalizing start s with
  | nil => nofun
  | cons line rest ih =>
    exact List.forall_mem_append.mpr
      ⟨takesAll_legs w hcon, ih (shown_eq_flatten w _ hcon).2⟩

theorem entry_legs (entries : List (Except Failure Invocation)) (dir : Path) (s : Scene φ κ) :
    (legs w entries dir s).map (·.entry) = entries := by
  induction entries generalizing dir s with
  | nil => rfl
  | cons entry rest ih => exact congrArg (entry :: ·) (ih _ _)

theorem entry_sessionLegs (lines : List Text) (start : Path) (s : Scene φ κ) :
    (sessionLegs w lines start s).map (·.entry) = lines.flatMap Line.invocations := by
  induction lines generalizing start s with
  | nil => rfl
  | cons line rest ih => rw [sessionLegs, List.map_append, entry_legs, ih, List.flatMap_cons]

/-- What is on record of a session with the eleven commands, on any file
system and any console, at level `info`. Leg by leg, a `cd` that succeeds
has one record, from where the session was to where it is then; a `cd` whose
line the console refuses has one too, although the session stays; anything
else has none. The records are those of the moves exactly if no line of a
`cd` was refused, as on a console that takes everything; then following
them leads from the first directory of the session to its last. -/
theorem journal_of_moves (lines : List Text) (start : Path) (s : Scene φ κ) :
    let session := (executeAll Builtin.table lines start).run w s
    let legs := sessionLegs w lines start s
    let moves := (legs.filter (·.moved w)).map fun l =>
      Log.Record.directoryChanged l.dir (l.after w)
    legs.map (·.entry) = lines.flatMap Line.invocations ∧
    infos session.exchanges = legs.flatMap (fun l => infos (l.run w).exchanges) ∧
    (∀ l ∈ legs,
      (l.moved w = true → infos (l.run w).exchanges = [.directoryChanged l.dir (l.after w)]) ∧
      (l.unsaid w = true → l.after w = l.dir ∧
        ∃ place, l.HeadsFor place ∧ infos (l.run w).exchanges = [.directoryChanged l.dir place]) ∧
      (l.moved w = false → l.unsaid w = false →
        l.after w = l.dir ∧ infos (l.run w).exchanges = [])) ∧
    (infos session.exchanges = moves ↔ ∀ l ∈ legs, l.unsaid w = false) ∧
    ((∀ l ∈ legs, l.unsaid w = false) →
      Log.follow start (infos session.exchanges) = some session.value) ∧
    (w.console.TakesAll s.console → ∀ l ∈ legs, l.unsaid w = false) := by
  intro session legs moves
  have hinfos : infos session.exchanges = legs.flatMap (fun l => infos (l.run w).exchanges) :=
    infos_executeAll w lines start s
  refine ⟨entry_sessionLegs w lines start s, hinfos, fun l _ => infos_leg w l, ?_, ?_, ?_⟩
  · rw [hinfos]
    exact infos_legs_eq_iff w legs
  · rw [hinfos]
    exact follow_sessionLegs w lines start s
  · exact fun hcon l hl => unsaid_of_takesAll w (takesAll_sessionLegs w hcon l hl)

end

/-- Two lines with three steps, one of them to nowhere. -/
theorem journal_of_moves_there_and_back :
    let w := Host.world Host.fileSystem Console.screen
    let s : Scene Host Console.Screen :=
      ⟨⟨.directory 0 [(['d'], .directory 0 [])], .inTree []⟩, {}⟩
    let session :=
      (executeAll Builtin.table ["cd d | cd x".toList, "cd ..".toList] Path.root).run w s
    infos session.exchanges =
        [.directoryChanged ⟨['/']⟩ ⟨['/', 'd']⟩, .directoryChanged ⟨['/', 'd']⟩ ⟨['/']⟩] ∧
      Log.follow Path.root (infos session.exchanges) = some session.value := by
  intro w s session
  obtain ⟨-, -, -, -, hfollow, hsaid⟩ :=
    journal_of_moves w ["cd d | cd x".toList, "cd ..".toList] Path.root s
  exact ⟨by decide +kernel, hfollow (hsaid (Console.takesAll_screen rfl))⟩

/-- On a console with no room, a move is on record that is not made. -/
theorem journal_records_unsaid_move :
    let w := Host.world Host.fileSystem Console.screen
    let s : Scene Host Console.Screen :=
      ⟨⟨.directory 0 [(['d'], .directory 0 [])], .inTree []⟩, { room := some 0 }⟩
    let session := (executeAll Builtin.table ["cd d".toList] Path.root).run w s
    infos session.exchanges = [.directoryChanged ⟨['/']⟩ ⟨['/', 'd']⟩] ∧
      session.value = Path.root ∧
      (∀ l ∈ sessionLegs w ["cd d".toList] Path.root s, l.moved w = false) ∧
      Log.follow Path.root (infos session.exchanges) ≠ some session.value := by
  exact ⟨by decide +kernel, by decide +kernel, by decide +kernel, by decide +kernel⟩

end Shell

end FileShell

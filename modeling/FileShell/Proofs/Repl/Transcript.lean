/-
FileShell.Proofs.Repl.Transcript — faults of the console only cut the
transcript.

A shell is driven from outside in steps: a line is run, or a session is
held on an input (`Drive`). Whatever steps are taken, the programs that
carry them out are steady (`steady_drive`), since the eleven commands
never flush, and the flush after a line is answered without consequence.

So a console that takes only so many bytes shows the beginning of what a
console that takes everything would show, although the two shells may part
at the first byte that is refused: a `cd` is not made, a target not
opened, a history not saved. And consoles that take everything are all the
same to a shell, whatever they say to a flush.
-/
import FileShell.Proofs.Program.Cutting
import FileShell.Proofs.Repl.Listening
import FileShell.Proofs.Shell.Composition
import FileShell.Proofs.Shell.Pipeline

namespace FileShell

variable {φ κ κ' : Type}

/-! ## Steady programs of a shell -/

open Program

theorem Program.compositional_steady : Compositional fun p => p.Steady where
  done := steady_done
  bind := steady_bind
  request := steady_request

/-- It makes no difference what a console says to the flush after a line. -/
theorem Shell.steady_flush : Shell.flush.Steady := by
  constructor
  intro φ κ κ' w con room s s' hfiles _ hroom
  rw [shown_flush, shown_flush, Bytes.cut_of_fits (Bytes.fits_nil room)]
  refine ⟨rfl, fun _ => ⟨rfl, ?_, ?_⟩, fun hno => absurd (Bytes.fits_nil room) hno⟩
  · rw [scene_flush, scene_flush]
    exact hfiles
  · rw [scene_flush, Bytes.spare_nil]
    exact hroom.flush

namespace Repl

variable {table : CommandTable}

theorem steady_loadHistory (file : Option Path) : (loadHistory file).Steady := by
  unfold loadHistory
  split
  · exact steady_done _
  · refine steady_bind (steady_request nofun) fun answer => ?_
    split
    · exact steady_bind (steady_request nofun) fun _ => steady_done _
    · split
      · exact steady_done _
      · exact steady_bind (steady_request nofun) fun _ => steady_done _

theorem steady_finish (file : Option Path) (result : Except Error Unit) (h : History) :
    (finish file result h).Steady := by
  unfold finish saveHistory
  split
  · split
    · exact steady_done _
    · split
      · refine steady_bind (steady_request nofun) fun answer => ?_
        split
        · exact steady_done _
        · exact steady_request nofun
      · exact steady_done _
  · exact steady_done _

theorem steady_ending (d : Option (Option Text)) : (ending d).Steady := by
  match d with
  | none => exact steady_done _
  | some none => exact steady_done _
  | some (some line) =>
    exact steady_bind (steady_request (r := .print farewell.bytes) nofun) fun _ => steady_done _

theorem steady_run (htable : table.All fun p => p.Steady) (history : Option Path) (input : Bytes)
    (dir : Path) : (run table history input dir).Steady := by
  rw [run_eq]
  refine steady_bind (steady_loadHistory history) fun h => ?_
  refine steady_bind (compositional_steady.executeAll htable Shell.steady_flush _ dir) fun d => ?_
  refine steady_bind (steady_ending _) fun result => ?_
  exact steady_bind (steady_finish _ _ _) fun _ => steady_done _

/-! ## Driving a shell -/

/-- One thing that a shell is told from outside. -/
inductive Drive where
  /-- Run a line. -/
  | execute (line : Text)
  /-- Hold a session on an input, with a history file or without. -/
  | converse (history : Option Path) (input : Bytes)

/-- What a shell answers to it. -/
inductive Reply where
  | code (code : ExitCode)
  | ended (result : Except Error Unit)

/-- What is done when the shell is told one thing: the reply, and the
directory the shell is in afterwards. -/
def drive (table : CommandTable) : Drive → Path → Program (Reply × Path)
  | .execute line, dir => do
    let (code, dir) ← Shell.execute table line dir
    return (.code code, dir)
  | .converse history input, dir => do
    let (result, dir) ← run table history input dir
    return (.ended result, dir)

/-- One thing after another. -/
def driveAll (table : CommandTable) : List Drive → Path → Program (List Reply × Path)
  | [], dir => return ([], dir)
  | d :: rest, dir => do
    let (reply, dir) ← drive table d dir
    let (replies, dir) ← driveAll table rest dir
    return (reply :: replies, dir)

theorem steady_drive (htable : table.All fun p => p.Steady) (d : Drive) (dir : Path) :
    (drive table d dir).Steady := by
  cases d with
  | execute line =>
    exact steady_bind (compositional_steady.execute htable Shell.steady_flush line dir)
      fun _ => steady_done _
  | converse history input => exact steady_bind (steady_run htable _ _ _) fun _ => steady_done _

theorem steady_driveAll (htable : table.All fun p => p.Steady) (ds : List Drive) (dir : Path) :
    (driveAll table ds dir).Steady := by
  induction ds generalizing dir with
  | nil => exact steady_done _
  | cons d rest ih =>
    exact steady_bind (steady_drive htable d dir) fun r =>
      steady_bind (ih r.2) fun _ => steady_done _

/-- A shell with the eleven commands is told some things, with any files and
on a console that takes every byte. On a console that takes `n` bytes and
no more, in part where a print crosses that mark, the same things show the
first `n` bytes of what they show there; and if that is all of it, they
leave the same replies, files and directory. On every other console that
takes every byte they show and leave the same, so it does not matter
whether the flushes of a console succeed or fail. -/
theorem transcript_cut (w : World φ κ) {s : Scene φ κ} (hcon : w.console.TakesAll s.console)
    (ds : List Drive) (dir : Path) (con : Console κ') (k : κ') :
    let p := driveAll Builtin.table ds dir
    let full := p.run w s
    let other := p.run (w.on con) ⟨s.files, k⟩
    (∀ n, con.HasRoom (some n) k →
      p.shown (w.on con) ⟨s.files, k⟩ = (p.shown w s).take n ∧
        ((p.shown w s).length ≤ n →
          other.value = full.value ∧ other.scene.files = full.scene.files)) ∧
    (con.TakesAll k →
      p.shown (w.on con) ⟨s.files, k⟩ = p.shown w s ∧
        other.value = full.value ∧ other.scene.files = full.scene.files) := by
  intro p full other
  have hsteady : p.Steady := steady_driveAll (Builtin.all_table compositional_steady) ds dir
  have hfiles : s.files = (Scene.mk s.files k).files := rfl
  constructor
  · intro n hroom
    obtain ⟨hshown, hsame, _⟩ := hsteady.beside w con (some n) hfiles hcon hroom
    refine ⟨hshown, fun hlength => ?_⟩
    obtain ⟨hvalue, hafter, _⟩ := hsame fun m hm => Option.some.inj hm ▸ hlength
    exact ⟨hvalue, hafter.symm⟩
  · intro hall
    obtain ⟨hshown, hsame, _⟩ := hsteady.beside w con none hfiles hcon
      (Console.hasRoom_none_iff.mpr hall)
    obtain ⟨hvalue, hafter, _⟩ := hsame nofun
    exact ⟨hshown, hvalue, hafter.symm⟩

/-- A screen that is full in the middle of the line that says where `cd` has
gone, and one whose flushes fail. -/
theorem transcript_cut_in_cd :
    let w := Host.world Host.fileSystem Console.screen
    let files : Host := ⟨.directory 0 [(['d'], .directory 0 [])], .inTree []⟩
    let p := driveAll Builtin.table
      [.execute "pwd | cd d".toList, .converse none (Utf8.encode "pwd\nexit".toList)] Path.root
    p.shown w ⟨files, { room := some 9 }⟩ = (p.shown w ⟨files, {}⟩).take 9 ∧
      (p.run w ⟨files, { flushError := some Console.full }⟩).value =
        (p.run w ⟨files, {}⟩).value := by
  intro w files p
  have hcon : Console.screen.TakesAll ({} : Console.Screen) := Console.takesAll_screen rfl
  have hroom : Console.screen.HasRoom (some 9) ({ room := some 9 } : Console.Screen) :=
    Console.hasRoom_screen { room := some 9 }
  have hall : Console.screen.TakesAll ({ flushError := some Console.full } : Console.Screen) :=
    Console.takesAll_screen rfl
  obtain ⟨hcut, _⟩ :=
    transcript_cut w (s := ⟨files, {}⟩) hcon _ Path.root Console.screen { room := some 9 }
  obtain ⟨_, hsame⟩ :=
    transcript_cut w (s := ⟨files, {}⟩) hcon _ Path.root Console.screen
      { flushError := some Console.full }
  exact ⟨(hcut 9 hroom).1, (hsame hall).2.1⟩

end Repl

end FileShell

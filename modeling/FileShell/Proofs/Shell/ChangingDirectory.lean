/-
FileShell.Proofs.Shell.ChangingDirectory — `cd` in two steps and in one.

On a console that never fails, `cd` succeeds if and only if it means a
place and the file system says that this is a directory (`value_cdRun`).
The place is what the argument resolves to, for a lone `..` too, which
takes the path above and is not resolved (`eq_resolve_of_cdTarget`). So two
steps with `cd` mean the same place as one step with a slash between the
arguments (`cdTarget_slash`), and ask for one directory more; and `..` and
`../` mean the same place (`cdTarget_up`).

A file system may answer as it likes. What is said of two steps and one
compares the one step with the second of the two, which put the same
question; where questions change nothing, it may be taken from the start
as well.
-/
import FileShell.Proofs.Path.Congruence
import FileShell.Proofs.Program.Printing
import FileShell.Proofs.Shell.Redirecting

namespace FileShell

variable {φ κ : Type}

namespace Builtin

open Program

variable {c : Path} {arg : Text}

/-! ## Where `cd` means to go -/

theorem body_parent : Path.body ⟨['.', '.']⟩ = [.parent] := by decide

theorem body_parent_slash : Path.body ⟨['.', '.', '/']⟩ = [.parent] := by decide

/-- Only at the root does `cd` mean no place. -/
theorem cdTarget_eq_ok (hc : c.IsNormal) (h : c ≠ Path.root ∨ arg ≠ ['.', '.']) :
    cdTarget arg c = .ok (c.resolve arg) := by
  rw [cdTarget]
  split
  · next harg =>
    subst harg
    rw [Path.parent?_eq_resolve hc (h.resolve_right (by simp)) rfl body_parent]
  · rfl

/-- The place that `cd` means is what its argument resolves to. -/
theorem eq_resolve_of_cdTarget (hc : c.IsNormal) {place : Path} (h : cdTarget arg c = .ok place) :
    place = c.resolve arg := by
  by_cases hroot : c = Path.root ∧ arg = ['.', '.']
  · obtain ⟨rfl, rfl⟩ := hroot
    cases h
  · rw [cdTarget_eq_ok hc (Decidable.not_and_iff_not_or_not.mp hroot)] at h
    exact (Except.ok.inj h).symm

/-- Two arguments with a slash between them mean what the second means from
where the first leads. -/
theorem cdTarget_slash (hc : c.IsNormal) {a b : Text} (ha : a ≠ [])
    (hb : Path.isAbsolute ⟨b⟩ = false) :
    cdTarget (a ++ '/' :: b) c = .ok ((c.resolve a).resolve b) := by
  have hplain : a ++ '/' :: b ≠ ['.', '.'] := fun hup => by
    have hslash : '/' ∈ a ++ '/' :: b := by simp
    simp [hup] at hslash
  rw [cdTarget_eq_ok hc (.inr hplain), Path.resolve_resolve c ha hb]

/-- Below the root there are two ways to ask for the path above. -/
theorem cdTarget_up (hc : c.IsNormal) (hroot : c ≠ Path.root) :
    cdTarget ['.', '.'] c = .ok (c.resolve ['.', '.', '/']) := by
  rw [cdTarget, if_pos rfl, Path.parent?_eq_resolve hc hroot rfl body_parent_slash]

/-! ## Running it -/

/-- A run of `cd` with one argument. -/
def cdRun (w : World φ κ) (s : Scene φ κ) (dir : Path) (arg : Text) : Run φ κ Outcome :=
  ((command .cd [arg]).run dir).run w s

variable {w : World φ κ} {s : Scene φ κ}

/-- What `cd` comes to where it means a place and the console takes its line. -/
theorem value_cdRun (hcon : w.console.TakesAll s.console) {place : Path}
    (hplace : cdTarget arg c = .ok place) :
    (cdRun w s c arg).value =
      if (w.files.answer (.isDirectory place) s.files).1 then ⟨.ok 0, [], place⟩
      else ⟨.error (.noSuchDirectory arg), [], c⟩ := by
  have hline :=
    (hcon.write (Text.bytes ("Changed directory to: ".toList ++ place.text ++ ['\n']))).1
  rw [cdRun, run_command_ok rfl, perform, map_eq_bind, run_bind_value, run_runCd, hplace]
  cases hanswer : (w.files.answer (.isDirectory place) s.files).1 with
  | false =>
    simp only [run_ask, World.answer, hanswer]
    rfl
  | true =>
    simp only [run_ask, World.answer, hanswer, if_true, announce, hline]
    rfl

/-- Whether it succeeds or not, `cd` has asked once. -/
theorem files_cdRun {place : Path} (hplace : cdTarget arg c = .ok place) :
    (cdRun w s c arg).scene.files = (w.files.answer (.isDirectory place) s.files).2 := by
  rw [cdRun, run_command_ok rfl, perform, map_eq_bind, run_bind_scene, run_runCd, hplace]
  cases hanswer : (w.files.answer (.isDirectory place) s.files).1 with
  | false =>
    simp only [run_ask, World.answer, hanswer]
    rfl
  | true =>
    simp only [run_ask, World.answer, hanswer, if_true]
    rfl

theorem value_cdRun_error {f : Failure} (hf : cdTarget arg c = .error f) :
    (cdRun w s c arg).value = ⟨.error f, [], c⟩ := by
  rw [cdRun, run_command_ok rfl, perform, map_eq_bind, run_bind_value, run_runCd, hf]
  rfl

/-- A `cd` that succeeds has come to what its argument resolves to, and the
file system has said that this is a directory. -/
theorem arrival_of_isOk (hc : c.IsNormal) (hcon : w.console.TakesAll s.console)
    (h : (cdRun w s c arg).value.result.isOk = true) :
    cdTarget arg c = .ok (c.resolve arg) ∧
      (w.files.answer (.isDirectory (c.resolve arg)) s.files).1 = true ∧
      (cdRun w s c arg).value = ⟨.ok 0, [], c.resolve arg⟩ := by
  cases hplace : cdTarget arg c with
  | error f =>
    rw [value_cdRun_error hplace] at h
    cases h
  | ok place =>
    obtain rfl := eq_resolve_of_cdTarget hc hplace
    rw [value_cdRun hcon hplace] at h ⊢
    split at h
    · next hyes => exact ⟨rfl, hyes, if_pos hyes⟩
    · cases h

/-- Two steps that succeed can be made in one, with a slash between the
arguments: where the second step is made, whatever the file system is, and
from the start too if it is not changed by questions. Below the root, `..`
and `../` both succeed and lead to the same directory, or both fail. -/
theorem cd_in_one_step (w : World φ κ) {c : Path} (hc : c.IsNormal) {s : Scene φ κ}
    (hcon : w.console.TakesAll s.console) :
    (∀ a b : Text, a ≠ [] → Path.isAbsolute ⟨b⟩ = false →
      let first := cdRun w s c a
      let second := cdRun w first.scene first.value.directory b
      first.value.result.isOk = true → second.value.result.isOk = true →
        (cdRun w first.scene c (a ++ '/' :: b)).value = second.value ∧
        (w.files.QuestionsPass → (cdRun w s c (a ++ '/' :: b)).value = second.value)) ∧
    (c ≠ Path.root →
      let up := (cdRun w s c ['.', '.']).value
      let upSlash := (cdRun w s c ['.', '.', '/']).value
      (up.result.isOk = true ∧ upSlash.result.isOk = true ∧ up.directory = upSlash.directory) ∨
        (up.result.isOk = false ∧ upSlash.result.isOk = false ∧ up.directory = c ∧
          upSlash.directory = c)) := by
  constructor
  · intro a b ha hb first second hfirst hsecond
    have hcon' : w.console.TakesAll first.scene.console := (shown_eq_flatten w _ hcon).2
    obtain ⟨htarget, -, hvalue⟩ := arrival_of_isOk hc hcon hfirst
    have hdir : first.value.directory = c.resolve a := congrArg Outcome.directory hvalue
    simp only [second, hdir] at hsecond ⊢
    obtain ⟨-, hyes, hend⟩ :=
      arrival_of_isOk (Path.isNormal_resolve hc.isAbsolute a) hcon' hsecond
    have hone := cdTarget_slash hc ha hb
    rw [hend, value_cdRun hcon' hone, if_pos hyes]
    refine ⟨rfl, fun hpass => ?_⟩
    rw [files_cdRun htarget, hpass _ rfl] at hyes
    rw [value_cdRun hcon hone, if_pos hyes]
  · intro hroot up upSlash
    have hslash : cdTarget ['.', '.', '/'] c = .ok (c.resolve ['.', '.', '/']) :=
      cdTarget_eq_ok hc (.inl hroot)
    simp only [up, upSlash, value_cdRun hcon (cdTarget_up hc hroot), value_cdRun hcon hslash]
    split
    · exact .inl ⟨rfl, rfl, rfl⟩
    · exact .inr ⟨rfl, rfl, rfl, rfl⟩

/-- Two steps, the first through the root, made in one; and the two ways up. -/
theorem cd_in_one_step_through_root :
    let w := Host.world Host.fileSystem Console.screen
    let s : Scene Host Console.Screen :=
      ⟨⟨.directory 0 [(['a'], .directory 0 [(['b'], .directory 0 [])])], .inTree []⟩, {}⟩
    let c : Path := ⟨['/', 'a']⟩
    (cdRun w s c "..//a//b/.".toList).value.directory = ⟨['/', 'a', '/', 'b']⟩ ∧
      (cdRun w s c ['.', '.']).value.directory = (cdRun w s c ['.', '.', '/']).value.directory := by
  intro w s c
  have hc : c.IsNormal := ⟨[['a']], by simp [Path.IsOrdinary], rfl⟩
  obtain ⟨hsteps, hup⟩ := cd_in_one_step w hc (s := s) (Console.takesAll_screen rfl)
  obtain ⟨-, hone⟩ := hsteps "..//a/".toList "b/.".toList (by decide) (by decide)
    (by decide +kernel) (by decide +kernel)
  refine ⟨(congrArg Outcome.directory (hone Host.questionsPass_fileSystem)).trans
    (by decide +kernel), ?_⟩
  rcases hup (by decide) with ⟨_, _, hsame⟩ | ⟨hfails, _⟩
  · exact hsame
  · cases hfails

end Builtin

end FileShell

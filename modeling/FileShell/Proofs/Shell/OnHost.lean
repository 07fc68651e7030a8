/-
FileShell.Proofs.Shell.OnHost — invocations of the built-in commands on a
machine, reduced to what the commands do.

The tree of a command says what it asks; on a machine every answer is a
function of the machine (`answer_files`). What stands around the tree adds
nothing for a command that says what it has done (`onHost_status`), and a
console that takes everything takes its last line too (`run_announce`).
-/
import FileShell.Proofs.Builtin.Trees
import FileShell.Proofs.Program.Printing
import FileShell.Proofs.Shell.Routing

namespace FileShell

open Program Builtin

variable {φ κ : Type}

/-- The file system of a machine answers by the machine. -/
theorem Host.answer_files (con : Console κ) (call : Files.Call) (s : Scene Host κ) :
    (Host.world Host.fileSystem con).answer (.files call) s =
      ((Host.answer call s.files).1, { s with files := (Host.answer call s.files).2 }) := rfl

namespace Builtin

section

variable {w : World φ κ} {s : Scene φ κ} {t : Text} {q : Success}

/-- A console that takes everything takes a last line, too. -/
theorem run_announce (hcon : w.console.TakesAll s.console) :
    ((announce t q).run w s).value = .ok q := by
  rw [announce, run_ask]
  exact congrArg (announced q) (hcon.write t.bytes).1

end

/-- An outcome is a success only of an action that succeeded. -/
theorem exists_of_outcome {dir : Path} {r : Except Failure Success}
    (h : (outcome dir r).result.isOk = true) : ∃ q, r = .ok q := by
  cases r with
  | ok q => exact ⟨q, rfl⟩
  | error f => cases h

end Builtin

namespace Shell

/-- A run of a built-in command on a machine. -/
def onHost (con : Console κ) (dir : Path) (n : Builtin.Name) (args : List Text)
    (redirect : Option Redirect) (s : Scene Host κ) :
    Run Host κ (Except Failure ExitCode × Path) :=
  (run Builtin.table ⟨n.text, args, redirect⟩ dir).run (Host.world Host.fileSystem con) s

/-- A command without output ends as it does by itself. -/
theorem onHost_status (con : Console κ) {n : Builtin.Name} (hn : n.redirectable = false)
    (args : List Text) {b : Builtin} (hargs : ofArgs n args = .ok b) (redirect : Option Redirect)
    (dir : Path) (s : Scene Host κ) :
    let own := (b.perform dir).run.run (Host.world Host.fileSystem con) s
    let whole := onHost con dir n args redirect s
    whole.value = ((outcome dir own.value).result, (outcome dir own.value).directory) ∧
      whole.scene = own.scene := by
  intro own whole
  simp only [whole, onHost, run_of_not_redirectable _ hn, run_command_ok hargs, run_map]
  exact ⟨rfl, rfl⟩

end Shell

end FileShell

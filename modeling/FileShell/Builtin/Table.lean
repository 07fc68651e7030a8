/-
FileShell.Builtin.Table — the eleven commands as commands of a session.

A command whose arguments could not be read still says whether its output
can be redirected, so its segment is treated like any other of that name;
running it is the failure.
-/
import FileShell.Builtin.Output
import FileShell.Builtin.Status

namespace FileShell

namespace Builtin

/-- What a command does when it starts in a directory. -/
def perform : Builtin → Path → Attempt Success
  | .echo message => runEcho message
  | .ls listing => runLs listing
  | .cat files => runCat files
  | .pwd => runPwd
  | .cd target => runCd target
  | .mkdir directory => runMkdir directory
  | .rmdir directory => runRmdir directory
  | .rm file => runRm file
  | .mv source destination => runMv source destination
  | .touch file => runTouch file
  | .help => runHelp

/-- The outcome of an action that started in a directory: a failure leaves
no output and the directory as it was. -/
def outcome (dir : Path) : Except Failure Success → Outcome
  | .ok s => ⟨.ok s.code, s.output, s.directory⟩
  | .error f => ⟨.error f, [], dir⟩

/-- The command of a name with some arguments. -/
def command (n : Name) (args : List Text) : Command where
  redirectable := n.redirectable
  run dir := outcome dir <$> ExceptT.run (do
    let b ← (ofArgs n args : Attempt Builtin)
    b.perform dir)

/-- The commands every session starts with. -/
def table : CommandTable := ⟨Name.all.map fun n => (n.text, command n)⟩

end Builtin

end FileShell

import FileShell.CommandLine
import FileShell.Files.Scripted
import FileShell.Host.FileSystem
import FileShell.Main
import FileShell.Proofs.Builtin.Concatenating
import FileShell.Proofs.Builtin.Gathering
import FileShell.Proofs.Builtin.Listing
import FileShell.Proofs.CommandLine.Starting
import FileShell.Proofs.CommandLine.Writing
import FileShell.Proofs.Host.Linkless
import FileShell.Proofs.Host.Crossing
import FileShell.Proofs.Line.Forms
import FileShell.Proofs.Line.Rendering
import FileShell.Proofs.Path.Beginning
import FileShell.Proofs.Repl.Listening
import FileShell.Proofs.Repl.Remembering
import FileShell.Proofs.Repl.Transcript
import FileShell.Proofs.Shell.ChangingDirectory
import FileShell.Proofs.Shell.Failing
import FileShell.Proofs.Shell.Guarding
import FileShell.Proofs.Shell.Journal
import FileShell.Proofs.Shell.NormalPaths
import FileShell.Proofs.Shell.Pipeline
import FileShell.Proofs.Shell.Redirecting
import FileShell.Proofs.Shell.Reasons
import FileShell.Proofs.Shell.Reporting
import FileShell.Proofs.Shell.Undoing
import FileShell.Proofs.Shell.Whereabouts
import FileShell.Proofs.SharedLog.Contents
import FileShell.SharedLog

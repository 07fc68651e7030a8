/-
FileShell.Options — what the command line asks for.

Arguments are read from left to right and the first mistake wins. An
option takes the argument after it whatever that looks like, and may be
given once, in either spelling. `--` ends the options. Whatever is not an
option is a mistake, since the program takes no other arguments. `--help`
and `help` show how the program is used, unless an option comes after them.
-/
import FileShell.Path

namespace FileShell

/-- What the command line asks for. -/
structure Options where
  /-- Where to start instead of the process directory. -/
  directory : Option Text := none
  /-- A line to run instead of reading lines. -/
  command : Option Text := none
  /-- The history file. -/
  history : Option Text := none
  /-- Whether details go on record. -/
  verbose : Bool := false
  deriving DecidableEq, Repr

namespace Options

/-- The name by which the program is called. -/
def program : Text := "cli_shell".toList

/-- How the program is used. -/
def help : Text :=
  "Usage: cli_shell [-C <directory>] [-c <command>] [--history <history>] [-v]

Minimal interactive shell for basic file and directory operations.

Options:
  -C, --directory   start in this directory instead of the current one
  -c, --command     run one line and exit with the status of its last command
  --history         file to load line history from and save it to
  -v, --verbose     log debug details to stderr
  --help, help      display usage information
".toList

/-- Why the arguments give no options. -/
inductive Refusal where
  /-- They ask how the program is used. -/
  | helpWanted
  /-- An option comes after the wish for help. -/
  | trailingAfterHelp
  /-- An option that takes a value is the last argument. -/
  | valueMissing (option : Text)
  /-- An option was given twice. -/
  | duplicate (option value : Text)
  /-- An argument means nothing. -/
  | unrecognized (arg : Text)
  deriving DecidableEq, Repr

/-- The text a refusal is shown as. -/
def Refusal.message : Refusal → Text
  | .helpWanted => help
  | .trailingAfterHelp => "Trailing arguments are not allowed after `help`.".toList
  | .valueMissing o => "No value provided for option '".toList ++ o ++ "'.\n".toList
  | .duplicate o v =>
    "Error parsing option '".toList ++ o ++ "' with value '".toList ++ v
      ++ "': duplicate values provided\n".toList
  | .unrecognized arg => "Unrecognized argument: ".toList ++ arg ++ ['\n']

/-- The options that take a value. -/
inductive Slot where
  | directory | command | history
  deriving DecidableEq, Repr

/-- The option that takes a value, by spelling. -/
def slot? (arg : Text) : Option Slot :=
  if arg = "-C".toList ∨ arg = "--directory".toList then some .directory
  else if arg = "-c".toList ∨ arg = "--command".toList then some .command
  else if arg = "--history".toList then some .history
  else none

/-- Whether an argument asks for details on record. -/
def isVerbose (arg : Text) : Bool := arg = "-v".toList || arg = "--verbose".toList

/-- Whether an argument asks how the program is used. -/
def isHelp (arg : Text) : Bool := arg = "--help".toList || arg = "help".toList

/-- What an option is set to. -/
def get (o : Options) : Slot → Option Text
  | .directory => o.directory
  | .command => o.command
  | .history => o.history

/-- The options with one of them set. -/
def set (o : Options) (value : Text) : Slot → Options
  | .directory => { o with directory := some value }
  | .command => { o with command := some value }
  | .history => { o with history := some value }

/-- Read the arguments that are left; `help` says whether help was asked
for before them. -/
def parseFrom (o : Options) (help : Bool) : List Text → Except Refusal Options
  | [] => if help then .error .helpWanted else .ok o
  | arg :: rest =>
    if isHelp arg then parseFrom o true rest
    else if arg = "--".toList then
      match rest with
      | [] => if help then .error .helpWanted else .ok o
      | a :: _ => .error (.unrecognized a)
    else if arg.head? ≠ some '-' then .error (.unrecognized arg)
    else if help then .error .trailingAfterHelp
    else if isVerbose arg then parseFrom { o with verbose := true } help rest
    else match slot? arg with
      | none => .error (.unrecognized arg)
      | some s =>
        match rest with
        | [] => .error (.valueMissing arg)
        | value :: rest =>
          if (o.get s).isSome then .error (.duplicate arg value)
          else parseFrom (o.set value s) help rest

/-- Read the arguments. -/
def parse (args : List Text) : Except Refusal Options := parseFrom {} false args

/-- How much is put on record. -/
def logLevel (o : Options) : Text := if o.verbose then "DEBUG".toList else "WARN".toList

end Options

end FileShell

/-
FileShell.Program — commands as trees of requests.

A `Program` is done, or asks the outside world for one thing and goes on
with the answer. It is data: what it would ask, in which order, and what
it would do with every possible answer can be read off it without running
it. The same program is run against a model of files and a console here
(`Program.run`) and against the real ones by the command line.

* `Request` lists everything the outside world can be asked for.
* `World` answers requests from a state, `Scene`, that keeps files and
  console apart.
* `Run` is what a run leaves: the value, the scene, and the exchanges
  (request and answer) in the order they happened.
-/
import FileShell.Files
import FileShell.Console
import FileShell.Log
import FileShell.Text.Utf8

namespace FileShell

/-! ## Requests -/

/-- Something a program asks of the outside world. -/
inductive Request where
  /-- A call to the file system the commands work on. -/
  | files (call : Files.Call)
  /-- Write bytes to the console. -/
  | print (content : Bytes)
  /-- Flush the console. -/
  | flush
  /-- Put an event on record. -/
  | note (record : Log.Record)
  /-- The content of the history file at a path. -/
  | loadHistory (path : Path)
  /-- Replace the history file at a path. -/
  | saveHistory (path : Path) (content : Bytes)
  deriving Repr

/-- What comes back from a request. -/
abbrev Request.Answer : Request → Type
  | .files call => call.Answer
  | .print _ => Except IoError Unit
  | .flush => Except IoError Unit
  | .note _ => Unit
  | .loadHistory _ => Except IoError Bytes
  | .saveHistory _ _ => Except IoError Unit

/-- A request together with what came back. -/
structure Exchange where
  request : Request
  answer : request.Answer

/-! ## Programs -/

/-- A computation that asks for things and ends with a value. -/
inductive Program (α : Type) where
  | done (value : α)
  | ask (request : Request) (next : request.Answer → Program α)

namespace Program

variable {α β γ : Type}

/-- One program after another. -/
def bind : Program α → (α → Program β) → Program β
  | .done a, f => f a
  | .ask r next, f => .ask r fun answer => (next answer).bind f

instance : Monad Program where
  pure := .done
  bind := bind

@[simp] theorem pure_eq_done (a : α) : (pure a : Program α) = .done a := rfl

@[simp] theorem done_bind (a : α) (f : α → Program β) : (Program.done a >>= f) = f a := rfl

@[simp] theorem ask_bind (r : Request) (next : r.Answer → Program α) (f : α → Program β) :
    (Program.ask r next >>= f) = .ask r fun answer => next answer >>= f := rfl

theorem bind_done (p : Program α) : (p >>= Program.done) = p := by
  induction p with
  | done a => rfl
  | ask r next ih => simp only [ask_bind, ih]

theorem bind_bind (p : Program α) (f : α → Program β) (g : β → Program γ) :
    (p >>= f >>= g) = (p >>= fun a => f a >>= g) := by
  induction p with
  | done a => rfl
  | ask r next ih => simp only [ask_bind, ih]

theorem map_eq_bind (f : α → β) (p : Program α) :
    (f <$> p) = (p >>= fun a => Program.done (f a)) := rfl

/-- Sequencing is associative and `done` is its unit. -/
instance : LawfulMonad Program :=
  LawfulMonad.mk' Program (fun p => by rw [map_eq_bind]; exact bind_done p)
    (fun _ _ => rfl) bind_bind

/-! ## Single requests -/

/-- Ask for one thing. -/
def request (r : Request) : Program r.Answer := .ask r .done

/-- Make one call to the file system. -/
def call (c : Files.Call) : Program c.Answer := request (.files c)

/-- Write text to the console. -/
def printText (t : Text) : Program (Except IoError Unit) := request (.print t.bytes)

/-- Put an event on record. -/
def note (record : Log.Record) : Program Unit := request (.note record)

end Program

/-! ## Running -/

/-- The state a program runs in. -/
structure Scene (φ κ : Type) where
  files : φ
  console : κ

/-- Everything that answers requests. The history file is reached on its
own way: not through the file system the commands work on. -/
structure World (φ κ : Type) where
  files : FileSystem φ
  console : Console κ
  loadHistory : Path → φ → Except IoError Bytes
  saveHistory : Path → Bytes → φ → Except IoError Unit × φ

/-- The answer to one request. -/
def World.answer {φ κ : Type} (w : World φ κ) :
    (r : Request) → Scene φ κ → r.Answer × Scene φ κ
  | .files call, s => let (a, files) := w.files.answer call s.files; (a, { s with files })
  | .print content, s =>
    let (a, console) := w.console.write content s.console; (a, { s with console })
  | .flush, s => let (a, console) := w.console.flush s.console; (a, { s with console })
  | .note _, s => ((), s)
  | .loadHistory path, s => (w.loadHistory path s.files, s)
  | .saveHistory path content, s =>
    let (a, files) := w.saveHistory path content s.files; (a, { s with files })

/-- What a run leaves behind. -/
structure Run (φ κ α : Type) where
  value : α
  scene : Scene φ κ
  exchanges : List Exchange

/-- A program run on from a scene; the exchanges so far come latest first. -/
def Program.runOn {φ κ α : Type} (w : World φ κ) :
    Program α → Scene φ κ → List Exchange → Run φ κ α
  | .done a, s, latest => ⟨a, s, latest.reverse⟩
  | .ask r next, s, latest =>
    let (a, s) := w.answer r s
    (next a).runOn w s (⟨r, a⟩ :: latest)

/-- A program run from a scene. -/
def Program.run {φ κ α : Type} (w : World φ κ) (p : Program α) (s : Scene φ κ) : Run φ κ α :=
  p.runOn w s []

namespace Program

variable {φ κ α : Type}

@[simp] theorem run_done (w : World φ κ) (a : α) (s : Scene φ κ) :
    (Program.done a).run w s = ⟨a, s, []⟩ := rfl

theorem runOn_ask (w : World φ κ) (r : Request) (next : r.Answer → Program α) (s : Scene φ κ)
    (latest : List Exchange) :
    (Program.ask r next).runOn w s latest =
      (next (w.answer r s).1).runOn w (w.answer r s).2 (⟨r, (w.answer r s).1⟩ :: latest) := rfl

/-- Running on is running, behind the exchanges so far. -/
theorem runOn_eq (w : World φ κ) (p : Program α) (s : Scene φ κ) (latest : List Exchange) :
    p.runOn w s latest =
      ⟨(p.run w s).value, (p.run w s).scene, latest.reverse ++ (p.run w s).exchanges⟩ := by
  induction p generalizing s latest with
  | done a => rw [run_done, List.append_nil, runOn]
  | ask r next ih =>
    rw [run, runOn_ask, runOn_ask, ih, ih _ _ [_], List.reverse_cons, List.append_assoc]
    rfl

theorem run_ask (w : World φ κ) (r : Request) (next : r.Answer → Program α) (s : Scene φ κ) :
    (Program.ask r next).run w s =
      ⟨((next (w.answer r s).1).run w (w.answer r s).2).value,
       ((next (w.answer r s).1).run w (w.answer r s).2).scene,
       ⟨r, (w.answer r s).1⟩ :: ((next (w.answer r s).1).run w (w.answer r s).2).exchanges⟩ := by
  rw [run, runOn_ask, runOn_eq]
  rfl

end Program

end FileShell

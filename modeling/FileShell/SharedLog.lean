/-
FileShell.SharedLog — a place to collect output that several holders share.

A `SharedLog` keeps logs and gives out handles to them. A new handle has a
log of its own; a handle cloned from another shares that one's log, so
what is written through either is seen through both, and taking the
content through one empties it for all.

The six operations, as calls with their answers, are `Call` and `answer`;
`answers` and `after` make one call after another.
-/
import FileShell.Text.Utf8

namespace FileShell

/-- Logs and the handles to them. -/
structure SharedLog where
  /-- What is in each log. -/
  logs : List Bytes
  /-- The log that each handle writes to. -/
  handles : List Nat
  deriving DecidableEq, Repr

namespace SharedLog

/-- No logs and no handles. -/
def empty : SharedLog := ⟨[], []⟩

/-- The log behind a handle. -/
def logOf (s : SharedLog) (handle : Nat) : Option Nat := s.handles[handle]?

/-- The bytes that a handle sees. -/
def bytes (s : SharedLog) (handle : Nat) : Bytes :=
  ((s.logOf handle).bind fun i => s.logs[i]?).getD []

/-- A new log with one handle: the handle, and the logs with it. -/
def create (s : SharedLog) : Nat × SharedLog :=
  (s.handles.length, ⟨s.logs ++ [[]], s.handles ++ [s.logs.length]⟩)

/-- Another handle to the log of a handle. -/
def clone (s : SharedLog) (handle : Nat) : Nat × SharedLog :=
  match s.logOf handle with
  | some i => (s.handles.length, { s with handles := s.handles ++ [i] })
  | none => s.create

/-- The logs with the log of a handle changed. -/
def modify (s : SharedLog) (handle : Nat) (f : Bytes → Bytes) : SharedLog :=
  match s.logOf handle with
  | some i => { s with logs := s.logs.modify i f }
  | none => s

/-- Write bytes through a handle: how many were taken, which is all of them. -/
def write (s : SharedLog) (handle : Nat) (data : Bytes) : Nat × SharedLog :=
  (data.length, s.modify handle (· ++ data))

/-- What is in the log of a handle, as text. -/
def contents (s : SharedLog) (handle : Nat) : Text := Utf8.decodeLossy (s.bytes handle)

/-- Take all bytes out of the log of a handle. -/
def drain (s : SharedLog) (handle : Nat) : Bytes × SharedLog :=
  (s.bytes handle, s.modify handle fun _ => [])

/-- What is in the log of a handle, as text, leaving it empty. -/
def take (s : SharedLog) (handle : Nat) : Text × SharedLog :=
  let (bytes, rest) := s.drain handle
  (Utf8.decodeLossy bytes, rest)

/-- Flush a handle. What is written is in the log at once, so there is
nothing left to do. -/
def flush (s : SharedLog) (_handle : Nat) : SharedLog := s

/-! ## Calls -/

/-- What can be asked of the logs. -/
inductive Call where
  | create
  | clone (handle : Nat)
  | write (handle : Nat) (data : Bytes)
  | flush (handle : Nat)
  | contents (handle : Nat)
  | take (handle : Nat)
  deriving DecidableEq, Repr

/-- What comes back. -/
inductive Answer where
  | handle (number : Nat)
  | count (taken : Nat)
  | done
  | text (t : Text)
  deriving DecidableEq, Repr

/-- Make a call: its answer, and the logs after it. -/
def answer (s : SharedLog) : Call → Answer × SharedLog
  | .create => s.create.map .handle id
  | .clone handle => (s.clone handle).map .handle id
  | .write handle data => (s.write handle data).map .count id
  | .flush handle => (.done, s.flush handle)
  | .contents handle => (.text (s.contents handle), s)
  | .take handle => (s.take handle).map .text id

/-- The logs after calls made one after another. -/
def after (s : SharedLog) (calls : List Call) : SharedLog :=
  calls.foldl (fun s c => (s.answer c).2) s

/-- The answers to calls made one after another. -/
def answers : SharedLog → List Call → List Answer
  | _, [] => []
  | s, c :: rest => (s.answer c).1 :: answers (s.answer c).2 rest

end SharedLog

end FileShell

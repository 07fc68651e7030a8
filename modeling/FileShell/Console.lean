/-
FileShell.Console — where status lines, reports and unredirected output
are shown.

A console decides byte by byte: it takes the byte, or refuses it with a
reason, and may change its mind later. Writing stops at the first byte
refused, so what is shown is always what was taken. How a text is cut
into writes makes no difference.

`Console.screen` is the console that remembers what it has shown. It may
have room for a limited number of bytes, after which it is full for good,
and it may fail to flush.
-/
import FileShell.IoError

namespace FileShell

/-- A way to take bytes one at a time, and to flush. -/
structure Console (κ : Type) where
  /-- Take a byte, or say why not. -/
  accept : UInt8 → κ → Except IoError Unit × κ
  /-- Make sure that what was taken is seen. -/
  flush : κ → Except IoError Unit × κ

namespace Console

variable {κ : Type}

/-- Write bytes until one is refused. -/
def write (con : Console κ) : Bytes → κ → Except IoError Unit × κ
  | [], k => (.ok (), k)
  | b :: rest, k =>
    match con.accept b k with
    | (.ok (), k) => con.write rest k
    | (.error e, k) => (.error e, k)

/-! ## A console that remembers -/

/-- What a screen has shown, newest byte first, and how it will go on. -/
structure Screen where
  newest : Bytes := []
  /-- How many more bytes it takes; no limit if absent. -/
  room : Option Nat := none
  /-- Why every flush fails, if it does. -/
  flushError : Option IoError := none
  deriving DecidableEq, Repr

/-- What a screen has shown. -/
def Screen.shown (s : Screen) : Bytes := s.newest.reverse

/-- A full screen's refusal. -/
def full : IoError := .custom .other "console full".toList

/-- The screen after one more byte. -/
def Screen.accept (b : UInt8) (s : Screen) : Except IoError Unit × Screen :=
  match s.room with
  | none => (.ok (), { s with newest := b :: s.newest })
  | some 0 => (.error full, s)
  | some (n + 1) => (.ok (), { s with newest := b :: s.newest, room := some n })

/-- The console whose state is a screen. -/
def screen : Console Screen where
  accept := Screen.accept
  flush s :=
    match s.flushError with
    | none => (.ok (), s)
    | some e => (.error e, s)

end Console

end FileShell

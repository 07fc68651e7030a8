/-
FileShell.Text.Utf8 — text as bytes and bytes as text.

Decoding is one scan, `Utf8.scan`, which cuts a byte sequence into
characters and faults. A fault is a maximal subpart of an ill-formed
sequence: the longest run of bytes that could still have begun a
character, or one byte that begins none. The two readings of the bytes
differ only in what they make of a fault:

* `Utf8.decode?` refuses the whole sequence;
* `Utf8.decodeLossy` puts one U+FFFD in the fault's place.

The second byte of a character carries the narrow ranges (no overlong
form, no surrogate, nothing above U+10FFFF); the later ones are plain
continuation bytes.
-/
import FileShell.Text

namespace FileShell

namespace Utf8

/-- The bytes of a text. -/
def encode (t : Text) : Bytes := t.flatMap String.utf8EncodeChar

/-- The number of bytes of a text. -/
def size (t : Text) : Nat := (encode t).length

/-! ## Byte classes -/

/-- What a first byte above 0x7F promises. -/
structure Lead where
  /-- How many bytes follow: one, two or three. -/
  more : Nat
  /-- The bits of the character that the first byte holds. -/
  bits : Nat
  /-- The least second byte. -/
  lo : UInt8
  /-- The greatest second byte. -/
  hi : UInt8

/-- The promise of a first byte, if it can begin a character of several bytes. -/
def lead? (b : UInt8) : Option Lead :=
  let n := b.toNat
  if b < 0xC2 then none
  else if b ≤ 0xDF then some ⟨1, n - 0xC0, 0x80, 0xBF⟩
  else if b = 0xE0 then some ⟨2, 0, 0xA0, 0xBF⟩
  else if b = 0xED then some ⟨2, n - 0xE0, 0x80, 0x9F⟩
  else if b ≤ 0xEF then some ⟨2, n - 0xE0, 0x80, 0xBF⟩
  else if b = 0xF0 then some ⟨3, 0, 0x90, 0xBF⟩
  else if b ≤ 0xF3 then some ⟨3, n - 0xF0, 0x80, 0xBF⟩
  else if b = 0xF4 then some ⟨3, 4, 0x80, 0x8F⟩
  else none

/-- Whether a byte can stand third or fourth in a character. -/
def isContinuation (b : UInt8) : Bool := decide (0x80 ≤ b) && decide (b ≤ 0xBF)

/-- The six bits of a byte after the first. -/
def low6 (b : UInt8) : Nat := b.toNat % 64

/-! ## The scan -/

/-- What the scan finds, in order: a character, or a fault (`none`). -/
def scan : Bytes → List (Option Char)
  | [] => []
  | b :: rest =>
    if b < 0x80 then some (Char.ofNat b.toNat) :: scan rest
    else match lead? b with
      | none => none :: scan rest
      | some l =>
        match rest with
        | [] => [none]
        | b₁ :: rest₁ =>
          if b₁ < l.lo || l.hi < b₁ then none :: scan (b₁ :: rest₁)
          else if l.more = 1 then
            some (Char.ofNat (l.bits * 64 + low6 b₁)) :: scan rest₁
          else match rest₁ with
            | [] => [none]
            | b₂ :: rest₂ =>
              if !isContinuation b₂ then none :: scan (b₂ :: rest₂)
              else if l.more = 2 then
                some (Char.ofNat ((l.bits * 64 + low6 b₁) * 64 + low6 b₂)) :: scan rest₂
              else match rest₂ with
                | [] => [none]
                | b₃ :: rest₃ =>
                  if !isContinuation b₃ then none :: scan (b₃ :: rest₃)
                  else
                    some (Char.ofNat (((l.bits * 64 + low6 b₁) * 64 + low6 b₂) * 64 + low6 b₃))
                      :: scan rest₃
termination_by structural b => b

/-- The text the bytes spell, or nothing if there is a fault among them. -/
def decode? (b : Bytes) : Option Text := (scan b).mapM id

/-- The text the bytes spell, with U+FFFD for each fault. -/
def decodeLossy (b : Bytes) : Text := (scan b).map fun c => c.getD '\uFFFD'

end Utf8

/-- The bytes of a text. -/
abbrev Text.bytes (t : Text) : Bytes := Utf8.encode t

end FileShell

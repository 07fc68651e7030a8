/-
FileShell.Proofs.Text.Ordering — UTF-8 keeps the order of the characters.

Bytes are compared one after another, and a sequence comes before what it
is the beginning of. Of two characters the one with the smaller number has
the smaller byte where their bytes first differ, and they do differ before
either ends (`Spells.append_lt`). So it makes no difference what comes
after, and texts may be compared by their first characters
(`encode_cons_lt`), and by what follows if these are the same
(`encode_cons_le_cons_self`).
-/
import FileShell.Proofs.Text.Decoding

namespace FileShell

namespace Utf8

variable {c d : Char}

/-- The smaller character comes first, whatever follows the two. -/
theorem Spells.append_lt {bs bs' : Bytes} (h : Spells bs c) (h' : Spells bs' d)
    (hlt : c.toNat < d.toNat) (rest rest' : Bytes) : bs ++ rest < bs' ++ rest' := by
  -- By the number of bytes of each; the numbers tell the bytes, so the rest is arithmetic.
  cases h <;> cases h' <;>
    simp only [Opens, List.cons_append, List.nil_append, List.cons_lt_cons_iff,
      UInt8.lt_iff_toNat_lt, ← UInt8.toNat_inj, UInt8.reduceToNat] at * <;>
    omega

theorem encode_cons (c : Char) (t : Text) : encode (c :: t) = String.utf8EncodeChar c ++ encode t :=
  List.flatMap_cons

theorem encode_cons_lt (hlt : c.toNat < d.toNat) (t u : Text) :
    encode (c :: t) < encode (d :: u) := by
  rw [encode_cons, encode_cons]
  exact (spells_encode c).append_lt (spells_encode d) hlt _ _

theorem append_le_append_iff (bs rest rest' : Bytes) :
    bs ++ rest ≤ bs ++ rest' ↔ rest ≤ rest' := by
  induction bs with
  | nil => rfl
  | cons b bs ih => simp [List.cons_le_cons_iff, ih]

theorem encode_cons_le_cons_self (c : Char) (t u : Text) :
    encode (c :: t) ≤ encode (c :: u) ↔ encode t ≤ encode u := by
  rw [encode_cons, encode_cons, append_le_append_iff]

end Utf8

end FileShell

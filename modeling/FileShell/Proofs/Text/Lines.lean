/-
FileShell.Proofs.Text.Lines — bytes line by line.

Bytes are empty, or a line without its newline, or a line, a newline and
more bytes. `rawLines` takes them apart in just this way (`rawLines_last`,
`rawLines_line`), and so a law about the lines of all bytes is proved in
three cases (`Lines.induction`). Where the first newline is cut, there is
one way to do it (`append_cons_inj`).

`chomp` leaves a last line as it is (`chomp_last`), and takes one carriage
return off a line that ended (`chomp_line`, `withoutLast`). Both bytes are
ASCII, so it makes no difference whether this is done before the bytes are
decoded or after (`decodeLossy_withoutReturn`).
-/
import Mathlib.Data.List.Basic
import FileShell.Proofs.Text.Decoding
import FileShell.Text.Lines

namespace FileShell

namespace Lines

/-- Lists that are cut at the first occurrence of an element are equal part by part. -/
theorem append_cons_inj {α : Type} {a : α} {l l' : List α} (h : a ∉ l) (h' : a ∉ l')
    {r r' : List α} : l ++ a :: r = l' ++ a :: r' ↔ l = l' ∧ r = r' := by
  induction l generalizing l' with
  | nil =>
    cases l' with
    | nil => simp
    | cons b l' => simp [show a ≠ b from fun he => h' (he ▸ List.mem_cons_self)]
  | cons b l ih =>
    rw [List.mem_cons, not_or] at h
    cases l' with
    | nil => simp [Ne.symm h.1]
    | cons c l' =>
      rw [List.mem_cons, not_or] at h'
      simp [ih h.2 h'.2, and_assoc]

variable {l : Bytes}

/-! ## Cutting -/

theorem rawLines_line (hl : newline ∉ l) (rest : Bytes) :
    rawLines (l ++ newline :: rest) = (l ++ [newline]) :: rawLines rest := by
  induction l with
  | nil => simp [rawLines]
  | cons b l ih =>
    rw [List.mem_cons, not_or] at hl
    rw [List.cons_append, rawLines, if_neg (Ne.symm hl.1), ih hl.2]
    rfl

theorem rawLines_last (hne : l ≠ []) (hl : newline ∉ l) : rawLines l = [l] := by
  induction l with
  | nil => exact absurd rfl hne
  | cons b l ih =>
    rw [List.mem_cons, not_or] at hl
    rw [rawLines, if_neg (Ne.symm hl.1)]
    cases l with
    | nil => rfl
    | cons c l => rw [ih (by simp) hl.2]

/-- Whatever holds of no bytes, of a last line, and of a line in front of
bytes of which it holds, holds of all bytes. -/
@[elab_as_elim]
theorem induction {motive : Bytes → Prop} (nil : motive [])
    (last : ∀ l, l ≠ [] → newline ∉ l → motive l)
    (line : ∀ l rest, newline ∉ l → motive rest → motive (l ++ newline :: rest))
    (bytes : Bytes) : motive bytes := by
  by_cases hmem : newline ∈ bytes
  · obtain ⟨l, rest, hbytes, hl⟩ := List.eq_append_cons_of_mem hmem
    have hless : rest.length < bytes.length := by
      rw [hbytes, List.length_append, List.length_cons]
      omega
    exact hbytes ▸ line l rest hl (Lines.induction nil last line rest)
  · by_cases hne : bytes = []
    · exact hne ▸ nil
    · exact last bytes hne hmem
termination_by bytes.length

/-! ## What is left of a line -/

/-- A list without a certain last element, if it ends with that. -/
def withoutLast {α : Type} [DecidableEq α] (a : α) (l : List α) : List α :=
  if l.getLast? = some a then l.dropLast else l

section

variable {α : Type} [DecidableEq α] {a : α}

theorem withoutLast_concat (a : α) (init : List α) : withoutLast a (init ++ [a]) = init := by
  rw [withoutLast, if_pos List.getLast?_concat, List.dropLast_concat]

theorem withoutLast_eq_self_iff {l : List α} : withoutLast a l = l ↔ l.getLast? ≠ some a := by
  rw [withoutLast]
  split
  · next hlast =>
    refine iff_of_false (fun he => ?_) (not_not.mpr hlast)
    have hlength := congrArg List.length he
    obtain ⟨init, rfl⟩ := List.getLast?_eq_some_iff.mp hlast
    simp at hlength
  · next hlast => exact iff_of_true rfl hlast

theorem mem_of_mem_withoutLast {b : α} {l : List α} (h : b ∈ withoutLast a l) : b ∈ l := by
  rw [withoutLast] at h
  split at h
  · exact List.dropLast_subset l h
  · exact h

end

theorem chomp_line (l : Bytes) : chomp (l ++ [newline]) = withoutLast carriageReturn l := by
  rcases List.eq_nil_or_concat l with rfl | ⟨init, b, rfl⟩
  · rfl
  · by_cases hb : b = carriageReturn
    · simp [chomp, withoutLast, hb]
    · simp [chomp, withoutLast, hb]

theorem chomp_last (hl : newline ∉ l) : chomp l = l := by
  rcases List.eq_nil_or_concat l with rfl | ⟨init, b, rfl⟩
  · rfl
  · have hb : b ≠ newline := fun he => hl (by simp [he])
    simp [chomp, hb]

/-- A carriage return in front of a newline is at the end of a line. -/
theorem infix_line_iff (hl : newline ∉ l) (rest : Bytes) :
    [carriageReturn, newline] <:+: l ++ newline :: rest ↔
      l.getLast? = some carriageReturn ∨ [carriageReturn, newline] <:+: rest := by
  constructor
  · rintro ⟨front, back, hcut⟩
    have hcut : (front ++ [carriageReturn]) ++ newline :: back = l ++ newline :: rest := by
      simpa using hcut
    by_cases hfront : newline ∈ front
    · obtain ⟨l', front, rfl, hl'⟩ := List.eq_append_cons_of_mem hfront
      rw [List.append_assoc, List.append_assoc, List.cons_append, append_cons_inj hl' hl] at hcut
      exact .inr ⟨front, back, by simpa using hcut.2⟩
    · have hend : newline ∉ front ++ [carriageReturn] := by
        simpa [show newline ≠ carriageReturn by decide] using hfront
      rw [append_cons_inj hend hl] at hcut
      exact .inl (by rw [← hcut.1, List.getLast?_concat])
  · rintro (hlast | hrest)
    · obtain ⟨front, rfl⟩ := List.getLast?_eq_some_iff.mp hlast
      exact ⟨front, rest, by simp⟩
    · obtain ⟨front, back, rfl⟩ := hrest
      exact ⟨l ++ newline :: front, back, by simp⟩

end Lines

/-! ## Lines that are decoded -/

namespace Utf8

open Lines (newline carriageReturn withoutLast)

theorem newline_ascii : newline < 0x80 := by decide

theorem return_ascii : carriageReturn < 0x80 := by decide

/-- Where no byte is a newline, no character is. -/
theorem newline_notMem_decodeLossy {l : Bytes} (hl : newline ∉ l) : '\n' ∉ decodeLossy l :=
  mt (mem_decodeLossy_iff newline_ascii).mp hl

theorem getLast?_decodeLossy_return {l : Bytes} :
    (decodeLossy l).getLast? = some '\r' ↔ l.getLast? = some carriageReturn :=
  getLast?_decodeLossy_iff return_ascii

/-- A carriage return at the end is taken off before or after decoding. -/
theorem decodeLossy_withoutReturn (l : Bytes) :
    decodeLossy (withoutLast carriageReturn l) = withoutLast '\r' (decodeLossy l) := by
  by_cases hlast : l.getLast? = some carriageReturn
  · obtain ⟨init, rfl⟩ := List.getLast?_eq_some_iff.mp hlast
    rw [Lines.withoutLast_concat, decodeLossy_append_ascii return_ascii]
    exact (Lines.withoutLast_concat '\r' (decodeLossy init)).symm
  · have hlast' : (decodeLossy l).getLast? ≠ some '\r' :=
      mt getLast?_decodeLossy_return.mp hlast
    rw [Lines.withoutLast_eq_self_iff.mpr hlast, Lines.withoutLast_eq_self_iff.mpr hlast']

end Utf8

end FileShell

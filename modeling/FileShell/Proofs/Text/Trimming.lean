/-
FileShell.Proofs.Text.Trimming — white space at the ends of a text.

A text is some white space, what trimming leaves, and some more white
space (`exists_padding`); what trimming leaves has no white space at
either end (`isTrimmed_trim`). The two determine it: a text without white
space at its ends is not changed (`trim_of_isTrimmed`), and white space
that is put in front or behind comes off again (`trim_blank_append`,
`trim_append_blank`). Between two texts that are not all white space
nothing is touched (`trim_append_append`).
-/
import Mathlib.Data.List.TakeWhile
import FileShell.Text

namespace FileShell

namespace Text

/-- All of the text is white space. -/
def IsBlank (t : Text) : Prop := ∀ c ∈ t, isBlank c = true

instance (t : Text) : Decidable t.IsBlank := List.decidableBAll (fun c => isBlank c = true) t

/-- The text has no white space at either end. -/
structure IsTrimmed (t : Text) : Prop where
  first : ∀ c ∈ t.head?, isBlank c = false
  last : ∀ c ∈ t.getLast?, isBlank c = false

/-! ## What trimming leaves -/

theorem isBlank_of_head?_dropWhile {t : Text} :
    ∀ c ∈ (t.dropWhile isBlank).head?, isBlank c = false := by
  intro c hc
  have hhead := List.head?_dropWhile_not isBlank t
  rw [Option.mem_def.mp hc] at hhead
  simpa using hhead

theorem exists_blank_append_trimStart (t : Text) :
    ∃ pad : Text, pad.IsBlank ∧ t = pad ++ t.trimStart := by
  refine ⟨t.takeWhile isBlank, fun c hc => ?_, List.takeWhile_append_dropWhile.symm⟩
  exact List.mem_takeWhile_imp hc

theorem exists_trimEnd_append_blank (t : Text) :
    ∃ pad : Text, pad.IsBlank ∧ t = t.trimEnd ++ pad := by
  refine ⟨(t.reverse.takeWhile isBlank).reverse, fun c hc => ?_, ?_⟩
  · exact List.mem_takeWhile_imp (List.mem_reverse.mp hc)
  · calc t = (t.reverse.takeWhile isBlank ++ t.reverse.dropWhile isBlank).reverse := by
          rw [List.takeWhile_append_dropWhile, List.reverse_reverse]
      _ = t.trimEnd ++ (t.reverse.takeWhile isBlank).reverse := List.reverse_append

/-- Trimming takes white space off the ends and nothing else. -/
theorem exists_padding (t : Text) :
    ∃ front back : Text, front.IsBlank ∧ back.IsBlank ∧ t = front ++ t.trim ++ back := by
  obtain ⟨front, hfront, hstart⟩ := exists_blank_append_trimStart t
  obtain ⟨back, hback, hend⟩ := exists_trimEnd_append_blank t.trimStart
  refine ⟨front, back, hfront, hback, ?_⟩
  rw [List.append_assoc, trim, ← hend, ← hstart]

theorem mem_of_mem_trim {t : Text} {c : Char} (h : c ∈ t.trim) : c ∈ t := by
  obtain ⟨front, back, _, _, ht⟩ := exists_padding t
  rw [ht]
  simp [h]

theorem isTrimmed_trim (t : Text) : t.trim.IsTrimmed := by
  constructor
  · intro c hc
    obtain ⟨back, _, hend⟩ := exists_trimEnd_append_blank t.trimStart
    have hstart : t.trimStart.head? = some c := by
      rw [hend, List.head?_append]
      exact Option.or_eq_some_iff.mpr (.inl hc)
    exact isBlank_of_head?_dropWhile c hstart
  · intro c hc
    rw [trim, trimEnd, List.getLast?_reverse] at hc
    exact isBlank_of_head?_dropWhile c hc

/-! ## Trimming again -/

theorem dropWhile_of_head? {t : Text} (h : ∀ c ∈ t.head?, isBlank c = false) :
    t.dropWhile isBlank = t := by
  cases t with
  | nil => rfl
  | cons c rest => simp [h c (by simp)]

theorem trim_of_isTrimmed {t : Text} (h : t.IsTrimmed) : t.trim = t := by
  have hstart : t.trimStart = t := dropWhile_of_head? h.first
  have hend : t.reverse.dropWhile isBlank = t.reverse :=
    dropWhile_of_head? (by simpa using h.last)
  rw [trim, hstart, trimEnd, hend, List.reverse_reverse]

theorem trim_blank_append {pad : Text} (h : pad.IsBlank) (t : Text) : (pad ++ t).trim = t.trim := by
  rw [trim, trim, trimStart, trimStart, List.dropWhile_append_of_pos h]

theorem trimEnd_append_blank {pad : Text} (h : pad.IsBlank) (t : Text) :
    (t ++ pad).trimEnd = t.trimEnd := by
  have hpad : ∀ c ∈ pad.reverse, isBlank c = true := fun c hc => h c (List.mem_reverse.mp hc)
  rw [trimEnd, trimEnd, List.reverse_append, List.dropWhile_append_of_pos hpad]

theorem trim_eq_nil_of_isBlank {t : Text} (h : t.IsBlank) : t.trim = [] := by
  have hstart : t.trimStart = [] := List.dropWhile_eq_nil_iff.mpr h
  rw [trim, hstart]
  rfl

/-- Trimming the start of a text that is not all white space goes no further. -/
theorem trimStart_append {t : Text} (h : ¬ t.IsBlank) (rest : Text) :
    (t ++ rest).trimStart = t.trimStart ++ rest := by
  have hne : t.dropWhile isBlank ≠ [] := fun he => h (List.dropWhile_eq_nil_iff.mp he)
  simp [trimStart, List.dropWhile_append, hne]

theorem trimEnd_append {t : Text} (h : ¬ t.IsBlank) (front : Text) :
    (front ++ t).trimEnd = front ++ t.trimEnd := by
  have hne : t.reverse.dropWhile isBlank ≠ [] := fun he =>
    h fun c hc => List.dropWhile_eq_nil_iff.mp he c (List.mem_reverse.mpr hc)
  simp [trimEnd, List.dropWhile_append, hne]

theorem isBlank_append {s t : Text} (hs : s.IsBlank) (ht : t.IsBlank) : (s ++ t).IsBlank :=
  fun c hc => (List.mem_append.mp hc).elim (hs c) (ht c)

theorem trim_append_blank {pad : Text} (h : pad.IsBlank) (t : Text) : (t ++ pad).trim = t.trim := by
  by_cases ht : t.IsBlank
  · rw [trim_eq_nil_of_isBlank (isBlank_append ht h), trim_eq_nil_of_isBlank ht]
  · rw [trim, trimStart_append ht, trimEnd_append_blank h, trim]

/-- What stands between two texts that are not all white space is out of
reach of trimming. -/
theorem trim_append_append {a b : Text} (ha : ¬ a.IsBlank) (hb : ¬ b.IsBlank) (mid : Text) :
    (a ++ mid ++ b).trim = a.trimStart ++ mid ++ b.trimEnd := by
  rw [trim, List.append_assoc, trimStart_append ha, ← List.append_assoc, trimEnd_append hb]

/-- Nothing is left exactly of white space. -/
theorem trim_eq_nil_iff (t : Text) : t.trim = [] ↔ t.IsBlank := by
  refine ⟨fun h c hc => ?_, trim_eq_nil_of_isBlank⟩
  obtain ⟨front, back, hfront, hback, ht⟩ := exists_padding t
  rw [ht, h, List.append_nil] at hc
  exact (List.mem_append.mp hc).elim (hfront c) (hback c)

/-- What is left of a text that is not blank does not start with white space. -/
theorem exists_trim_eq_cons {t : Text} (h : ¬ t.IsBlank) :
    ∃ c rest, t.trim = c :: rest ∧ isBlank c = false := by
  obtain ⟨c, rest, hcons⟩ := List.exists_cons_of_ne_nil (mt (trim_eq_nil_iff t).mp h)
  exact ⟨c, rest, hcons, (isTrimmed_trim t).first c (by simp [hcons])⟩

end Text

end FileShell

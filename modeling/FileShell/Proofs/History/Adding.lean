/-
FileShell.Proofs.History.Adding — what a history holds after lines were
added to it.

A history of some lines holds the newest of them, runs of one line
collapsed to one. Truncating and collapsing step by step, as lines come in,
is doing both once, over all lines (`entries_foldl_add`): collapsing looks
at the last line only, which truncating keeps (`getLast?_newest`), and what
is cut off early would be cut off later anyway (`newest_newest_append`).

A history that was saved is either unchanged by more lines or has to be
saved again (`foldl_add_eq_or_isDirty`).
-/
import Mathlib.Data.List.Destutter
import FileShell.History

namespace FileShell

namespace History

/-! ## Lines with their runs collapsed -/

/-- Lines, with each run of one line collapsed to one. -/
def collapsed (lines : List Text) : List Text := lines.destutter (· ≠ ·)

section

variable {α : Type} [DecidableEq α]

theorem destutter'_concat (a x : α) (l : List α) :
    (l ++ [x]).destutter' (· ≠ ·) a =
      if (a :: l).getLast? = some x then l.destutter' (· ≠ ·) a
      else l.destutter' (· ≠ ·) a ++ [x] := by
  induction l generalizing a with
  | nil =>
    rw [List.nil_append, List.destutter'_singleton, List.getLast?_singleton]
    by_cases hax : a = x
    · simp [hax]
    · simp [hax]
  | cons b l ih =>
    rw [List.cons_append, List.getLast?_cons_cons]
    by_cases hab : a ≠ b
    · rw [List.destutter'_cons_pos _ hab, List.destutter'_cons_pos _ hab, ih]
      split <;> rfl
    · rw [List.destutter'_cons_neg _ hab, List.destutter'_cons_neg _ hab, ih, not_not.mp hab]

end

variable {lines new : List Text} {line : Text}

/-- One more line is one more entry, unless it is the line before it. -/
theorem collapsed_concat (lines : List Text) (line : Text) :
    collapsed (lines ++ [line]) =
      if lines.getLast? = some line then collapsed lines else collapsed lines ++ [line] := by
  cases lines with
  | nil => rfl
  | cons a lines => exact destutter'_concat a line lines

theorem getLast?_collapsed (lines : List Text) : (collapsed lines).getLast? = lines.getLast? := by
  induction lines using List.reverseRecOn with
  | nil => rfl
  | append_singleton lines line ih =>
    rw [collapsed_concat, List.getLast?_concat]
    split
    · next hlast => rw [ih, hlast]
    · exact List.getLast?_concat

theorem mem_of_mem_collapsed (h : line ∈ collapsed lines) : line ∈ lines :=
  (List.destutter_sublist _ lines).subset h

theorem collapsed_eq_nil_iff : collapsed lines = [] ↔ lines = [] := List.destutter_eq_nil _

/-! ## The newest lines -/

theorem newest_of_length_le (h : lines.length ≤ capacity) : newest lines = lines := by
  rw [newest, Nat.sub_eq_zero_of_le h, List.drop_zero]

/-- What comes before enough lines does not matter. -/
theorem newest_append_of_le (h : capacity ≤ new.length) (lines : List Text) :
    newest (lines ++ new) = newest new := by
  rw [newest, List.length_append, Nat.add_sub_assoc h, List.drop_length_add_append, newest]

theorem length_newest (lines : List Text) : (newest lines).length = min capacity lines.length := by
  rw [newest, List.length_drop]
  omega

/-- Lines that are cut off early would be cut off later. -/
theorem newest_newest_append (lines new : List Text) :
    newest (newest lines ++ new) = newest (lines ++ new) := by
  rcases Nat.le_total lines.length capacity with hfew | hmany
  · rw [newest_of_length_le hfew]
  · have henough : capacity ≤ (newest lines ++ new).length := by
      rw [List.length_append, length_newest, Nat.min_eq_left hmany]
      exact Nat.le_add_right _ _
    have hcut : lines.take (lines.length - capacity) ++ newest lines = lines :=
      List.take_append_drop _ _
    rw [← newest_append_of_le henough (lines.take (lines.length - capacity)),
      ← List.append_assoc, hcut]

theorem newest_newest (lines : List Text) : newest (newest lines) = newest lines := by
  simpa using newest_newest_append lines []

theorem getLast?_newest (lines : List Text) : (newest lines).getLast? = lines.getLast? := by
  rw [newest, List.getLast?_drop]
  split
  · next hle =>
    have hnone : lines.length = 0 := by
      have hpos : 0 < capacity := by decide
      omega
    rw [List.eq_nil_of_length_eq_zero hnone]
    rfl
  · rfl

theorem mem_of_mem_newest (h : line ∈ newest lines) : line ∈ lines := List.mem_of_mem_drop h

theorem newest_eq_nil_iff : newest lines = [] ↔ lines = [] := by
  rw [← List.getLast?_eq_none_iff, getLast?_newest, List.getLast?_eq_none_iff]

/-- Collapsed lines have no run to collapse, however many are cut off. -/
theorem collapsed_newest_collapsed (lines : List Text) :
    collapsed (newest (collapsed lines)) = newest (collapsed lines) :=
  List.destutter_of_isChain _ _ ((List.isChain_destutter _ lines).drop _)

/-! ## Lines that come in -/

section

variable {h : History}

theorem add_nil (h : History) : h.add [] = h := if_pos (.inl rfl)

theorem entries_add (hne : line ≠ []) :
    (h.add line).entries =
      if h.entries.getLast? = some line then h.entries else newest (h.entries ++ [line]) := by
  rw [add]
  split
  · next hor => rw [if_pos (hor.resolve_left hne)]
  · next hor => rw [if_neg fun hlast => hor (.inr hlast)]

/-- Adding one line keeps to the newest of the collapsed lines. -/
theorem entries_add_of_newest (hentries : h.entries = newest (collapsed lines)) (hne : line ≠ []) :
    (h.add line).entries = newest (collapsed (lines ++ [line])) := by
  rw [entries_add hne, hentries, getLast?_newest, getLast?_collapsed, collapsed_concat]
  split
  · rfl
  · exact newest_newest_append _ _

/-- A history that holds the newest of some collapsed lines holds, after
more lines, the newest of all of them, collapsed; empty lines do not count. -/
theorem entries_foldl_add (hentries : h.entries = newest (collapsed lines)) (new : List Text) :
    (new.foldl add h).entries = newest (collapsed (lines ++ new.filter (· ≠ []))) := by
  induction new generalizing h lines with
  | nil => simpa using hentries
  | cons line new ih =>
    rw [List.foldl_cons]
    by_cases hne : line = []
    · rw [hne, add_nil, ih hentries, List.filter_cons_of_neg (by simp)]
    · rw [ih (entries_add_of_newest hentries hne), List.filter_cons_of_pos (by simpa using hne),
        List.append_assoc, List.singleton_append]

/-- Adding a line changes nothing or leaves something to save. -/
theorem add_eq_or_isDirty (h : History) (line : Text) :
    h.add line = h ∨ (h.add line).isDirty = true := by
  by_cases hsame : line = [] ∨ h.entries.getLast? = some line
  · exact .inl (if_pos hsame)
  · right
    have hne : newest (h.entries ++ [line]) ≠ [] := by simp [newest_eq_nil_iff]
    have hpos : 0 < (newest (h.entries ++ [line])).length := List.length_pos_of_ne_nil hne
    rw [add, if_neg hsame, isDirty]
    simp only [Bool.and_eq_true, Bool.not_eq_true', List.isEmpty_eq_false_iff, decide_eq_true_eq]
    exact ⟨hne, by omega⟩

/-- Adding lines changes nothing or leaves something to save. -/
theorem foldl_add_eq_or_isDirty (h : History) (new : List Text) :
    new.foldl add h = h ∨ (new.foldl add h).isDirty = true := by
  induction new using List.reverseRecOn with
  | nil => exact .inl rfl
  | append_singleton new line ih =>
    rw [List.foldl_append, List.foldl_cons, List.foldl_nil]
    rcases add_eq_or_isDirty (new.foldl add h) line with hsame | hdirty
    · rwa [hsame]
    · exact .inr hdirty

end

end History

end FileShell

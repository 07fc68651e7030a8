/-
FileShell.Proofs.Line.Segments — a line with a bar in it.

Cutting at bars and then reading each segment on its own makes a line a
homomorphic image of its text: what stands before a bar and what stands
after it are read as if each were a line (`segments_append_bar`,
`invocations_append_bar`).

A segment leaves no trace exactly when all of it is white space
(`entry?_eq_none_iff`), and that is so although trimming goes by the
Unicode class and tokens end at U+0020 alone: a segment that is not blank
still starts with a character that is no space once it is trimmed.
-/
import FileShell.Line.Parser
import FileShell.Proofs.Text.Pieces
import FileShell.Proofs.Text.Trimming

namespace FileShell

namespace Line

theorem segments_append_bar (a b : Text) :
    segments (a ++ '|' :: b) = segments a ++ segments b := Text.pieces_append_sep '|' a b

theorem invocations_append_bar (a b : Text) :
    invocations (a ++ '|' :: b) = invocations a ++ invocations b := by
  rw [invocations, segments_append_bar, List.filterMap_append]
  rfl

/-! ## Blank segments -/

theorem tokens_eq_nil_iff (segment : Text) : tokens segment = [] ↔ segment.IsBlank := by
  constructor
  · intro htokens
    apply Classical.byContradiction
    intro hblank
    obtain ⟨c, rest, htrim, hc⟩ := Text.exists_trim_eq_cons hblank
    have hspace : c ≠ ' ' := by
      rintro rfl
      exact absurd hc (by decide)
    obtain ⟨p, ps, hpieces⟩ := List.exists_cons_of_ne_nil (Text.pieces_ne_nil ' ' rest)
    rw [tokens, htrim, Text.pieces, if_neg hspace, hpieces] at htokens
    simp at htokens
  · intro hblank
    rw [tokens, Text.trim_eq_nil_of_isBlank hblank]
    rfl

/-- A segment leaves no trace exactly when it is blank. -/
theorem entry?_eq_none_iff (segment : Text) : entry? segment = none ↔ segment.IsBlank := by
  rw [← tokens_eq_nil_iff, entry?, invocation?]
  cases tokens segment with
  | nil => simp
  | cons name args =>
    dsimp only
    cases redirection args <;> simp

theorem invocations_eq_nil_iff (line : Text) :
    invocations line = [] ↔ ∀ segment ∈ segments line, segment.IsBlank := by
  simp only [invocations, List.filterMap_eq_nil_iff, entry?_eq_none_iff]

end Line

end FileShell

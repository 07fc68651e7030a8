/-
FileShell.Proofs.Line.Tokens — the tokens of a segment.

Tokens are never empty and hold no space, and their characters are the
segment's (`mem_tokens`, `mem_of_mem_tokens`). White space in the Unicode
sense may stand inside one, and at its ends too, but not at the two ends
of the row: the segment was trimmed there (`isBlank_first_token`,
`isBlank_last_token`).

These conditions are all there is. A row of texts that meets them is read
back from its texts joined by single spaces (`tokens_joined`).
-/
import FileShell.Proofs.Line.Segments

namespace FileShell

/-! ## Rows of words with trimmed ends -/

/-- A row of words joined by spaces has no white space at its ends if its
first word does not start with any and its last does not end with any. -/
theorem Text.isTrimmed_joined {words : List Text} (hwords : ∀ w ∈ words, w ≠ [])
    (hfirst : ∀ w ∈ words.head?, ∀ c ∈ w.head?, isBlank c = false)
    (hlast : ∀ w ∈ words.getLast?, ∀ c ∈ w.getLast?, isBlank c = false) :
    (joined ' ' words).IsTrimmed := by
  constructor
  · cases words with
    | nil => simp [joined]
    | cons w rest =>
      rw [head?_joined (hwords w (by simp))]
      exact hfirst w rfl
  · rcases List.eq_nil_or_concat words with rfl | ⟨front, w, rfl⟩
    · simp [joined]
    · rw [List.concat_eq_append, getLast?_joined (hwords w (by simp))]
      exact hlast w (by simp)

namespace Line

/-! ## What tokens are -/

theorem mem_tokens {segment t : Text} (h : t ∈ tokens segment) : t ≠ [] ∧ ' ' ∉ t := by
  obtain ⟨hpiece, hne⟩ := List.mem_filter.mp h
  exact ⟨by simpa using hne, Text.sep_notMem_of_mem_pieces hpiece⟩

theorem mem_of_mem_tokens {segment t : Text} (h : t ∈ tokens segment) {c : Char} (hc : c ∈ t) :
    c ∈ segment :=
  Text.mem_of_mem_trim (Text.mem_of_mem_pieces (List.mem_filter.mp h).1 hc)

/-- White space is no place to cut at unless it is a space. -/
theorem ne_space_of_isBlank {c : Char} (h : Text.isBlank c = false) : c ≠ ' ' := by
  rintro rfl
  exact absurd h (by decide)

theorem isBlank_first_token {segment name : Text} {args : List Text}
    (h : tokens segment = name :: args) : ∀ c ∈ name.head?, Text.isBlank c = false := by
  have hblank : ¬ segment.IsBlank := fun hb => by simp [(tokens_eq_nil_iff segment).mpr hb] at h
  obtain ⟨c, rest, htrim, hc⟩ := Text.exists_trim_eq_cons hblank
  obtain ⟨p, ps, hpieces⟩ := Text.exists_pieces_cons (ne_space_of_isBlank hc) rest
  rw [tokens, htrim, hpieces] at h
  have hname : c :: p = name := by simpa using (List.cons.inj h).1
  simp [← hname, hc]

theorem isBlank_last_token {segment t : Text} (h : (tokens segment).getLast? = some t) :
    ∀ c ∈ t.getLast?, Text.isBlank c = false := by
  cases hlast : segment.trim.getLast? with
  | none =>
    rw [tokens, List.getLast?_eq_none_iff.mp hlast] at h
    simp [Text.pieces] at h
  | some c =>
    have hc : Text.isBlank c = false := (Text.isTrimmed_trim segment).last c hlast
    obtain ⟨ps, p, hpieces, hp⟩ := Text.exists_pieces_concat hlast (ne_space_of_isBlank hc)
    have hne : p ≠ [] := by
      rintro rfl
      simp at hp
    rw [tokens, hpieces, List.filter_append] at h
    obtain rfl : p = t := by simpa [hne] using h
    simp [hp, hc]

/-! ## Reading words back -/

theorem tokens_joined {words : List Text} (hwords : ∀ w ∈ words, w ≠ [] ∧ ' ' ∉ w)
    (hfirst : ∀ w ∈ words.head?, ∀ c ∈ w.head?, Text.isBlank c = false)
    (hlast : ∀ w ∈ words.getLast?, ∀ c ∈ w.getLast?, Text.isBlank c = false) :
    tokens (Text.joined ' ' words) = words := by
  by_cases hne : words = []
  · subst hne
    rfl
  · have htrimmed : (Text.joined ' ' words).IsTrimmed :=
      Text.isTrimmed_joined (fun w hw => (hwords w hw).1) hfirst hlast
    rw [tokens, Text.trim_of_isTrimmed htrimmed, Text.pieces_joined hne fun w hw => (hwords w hw).2]
    exact List.filter_eq_self.mpr fun w hw => by simpa using (hwords w hw).1

end Line

end FileShell

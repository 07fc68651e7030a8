/-
FileShell.Proofs.Text.Pieces — cutting at one character, against joining
and against appending.

`joined_pieces` (beside the definitions) says that cutting loses nothing.
Here are the laws in the other direction, and the one that everything
about lines with several segments rests on: the pieces of `s ++ sep :: t`
are the pieces of `s` followed by the pieces of `t` (`pieces_append_sep`).

Where two texts meet without a separator, the last piece of the one and
the first of the other become one (`pieces_append`), and the ends of a text
are the ends of its first and last piece unless a separator stands there
(`exists_pieces_cons`, `exists_pieces_concat`).
-/
import FileShell.Text

namespace FileShell

namespace Text

/-- A separator between two texts parts their pieces. -/
theorem pieces_append_sep (sep : Char) (s t : Text) :
    pieces sep (s ++ sep :: t) = pieces sep s ++ pieces sep t := by
  induction s with
  | nil => simp [pieces]
  | cons c rest ih =>
    by_cases h : c = sep
    · simp [pieces, h, ih]
    · rw [List.cons_append, pieces, pieces, if_neg h, if_neg h, ih]
      cases hp : pieces sep rest with
      | nil => exact absurd hp (pieces_ne_nil sep rest)
      | cons p ps => rfl

/-- No piece holds the separator. -/
theorem sep_notMem_of_mem_pieces {sep : Char} {t p : Text} (h : p ∈ pieces sep t) : sep ∉ p := by
  induction t generalizing p with
  | nil =>
    have : p = [] := by simpa [pieces] using h
    simp [this]
  | cons c rest ih =>
    by_cases hc : c = sep
    · rw [pieces, if_pos hc] at h
      rcases List.mem_cons.mp h with rfl | h
      · simp
      · exact ih h
    · rw [pieces, if_neg hc] at h
      cases hp : pieces sep rest with
      | nil => exact absurd hp (pieces_ne_nil sep rest)
      | cons q qs =>
        rw [hp] at h ih
        rcases List.mem_cons.mp h with rfl | h
        · have hq : sep ∉ q := ih (List.mem_cons_self ..)
          simp [hq, Ne.symm hc]
        · exact ih (List.mem_cons_of_mem _ h)

theorem mem_of_mem_pieces {sep : Char} {t p : Text} (h : p ∈ pieces sep t) {c : Char}
    (hc : c ∈ p) : c ∈ t := by
  induction t generalizing p with
  | nil =>
    have : p = [] := by simpa [pieces] using h
    simp [this] at hc
  | cons d rest ih =>
    obtain ⟨q, qs, hq⟩ := List.exists_cons_of_ne_nil (pieces_ne_nil sep rest)
    by_cases hd : d = sep
    · rw [pieces, if_pos hd] at h
      rcases List.mem_cons.mp h with rfl | h
      · simp at hc
      · exact List.mem_cons_of_mem _ (ih h hc)
    · rw [pieces, if_neg hd, hq] at h
      rw [hq] at ih
      rcases List.mem_cons.mp h with rfl | h
      · rcases List.mem_cons.mp hc with rfl | hc
        · simp
        · exact List.mem_cons_of_mem _ (ih (by simp) hc)
      · exact List.mem_cons_of_mem _ (ih (by simp [h]) hc)

/-- A text without the separator is one piece. -/
theorem pieces_of_notMem {sep : Char} {t : Text} (h : sep ∉ t) : pieces sep t = [t] := by
  induction t with
  | nil => rfl
  | cons c rest ih =>
    rw [List.mem_cons, not_or] at h
    rw [pieces, if_neg (Ne.symm h.1), ih h.2]

/-- Joining and cutting again gives the pieces back. -/
theorem pieces_joined {sep : Char} : ∀ {ps : List Text}, ps ≠ [] → (∀ p ∈ ps, sep ∉ p) →
    pieces sep (joined sep ps) = ps
  | [], hne, _ => absurd rfl hne
  | [p], _, h => by rw [joined, pieces_of_notMem (h p (by simp))]
  | p :: q :: ps, _, h => by
      have ih : pieces sep (joined sep (q :: ps)) = q :: ps :=
        pieces_joined (by simp) fun r hr => h r (List.mem_cons_of_mem _ hr)
      rw [joined, pieces_append_sep, ih, pieces_of_notMem (h p (by simp))]
      rfl

/-- One more piece at the end of a row that is not empty. -/
theorem joined_append_singleton (sep : Char) (p : Text) : ∀ {ps : List Text}, ps ≠ [] →
    joined sep (ps ++ [p]) = joined sep ps ++ sep :: p
  | [], hne => absurd rfl hne
  | [_], _ => rfl
  | q :: r :: ps, _ => by
      have ih : joined sep (r :: ps ++ [p]) = joined sep (r :: ps) ++ sep :: p :=
        joined_append_singleton sep p (by simp)
      rw [List.cons_append, List.cons_append, joined, ← List.cons_append, ih, joined]
      simp

theorem notMem_joined {sep c : Char} (hc : c ≠ sep) : ∀ {ps : List Text}, (∀ p ∈ ps, c ∉ p) →
    c ∉ joined sep ps
  | [], _ => by simp [joined]
  | [p], h => h p (by simp)
  | p :: q :: ps, h => by
      have hp : c ∉ p := h p (by simp)
      have ih : c ∉ joined sep (q :: ps) := notMem_joined hc fun r hr => h r (by simp [hr])
      simp [joined, hp, hc, ih]

theorem head?_joined {sep : Char} {p : Text} (hp : p ≠ []) (ps : List Text) :
    (joined sep (p :: ps)).head? = p.head? := by
  obtain ⟨c, rest, rfl⟩ := List.exists_cons_of_ne_nil hp
  cases ps <;> simp [joined]

/-- The last character of a row of pieces is that of its last piece. -/
theorem getLast?_joined {sep : Char} {ps : List Text} {p : Text} (hp : p ≠ []) :
    (joined sep (ps ++ [p])).getLast? = p.getLast? := by
  obtain ⟨c, hc⟩ : ∃ c, p.getLast? = some c := by
    cases h : p.getLast? with
    | none => exact absurd (List.getLast?_eq_none_iff.mp h) hp
    | some c => exact ⟨c, rfl⟩
  by_cases hne : ps = []
  · simp [hne, joined]
  · rw [joined_append_singleton sep p hne, List.getLast?_append, List.getLast?_cons, hc]
    simp

/-! ## The ends -/

/-- A text that does not start with the separator starts with its first piece. -/
theorem exists_pieces_cons {sep c : Char} (hc : c ≠ sep) (rest : Text) :
    ∃ p ps, pieces sep (c :: rest) = (c :: p) :: ps := by
  obtain ⟨p, ps, hp⟩ := List.exists_cons_of_ne_nil (pieces_ne_nil sep rest)
  exact ⟨p, ps, by rw [pieces, if_neg hc, hp]⟩

/-- A text that does not end with the separator ends with its last piece. -/
theorem exists_pieces_concat {sep c : Char} {t : Text} (ht : t.getLast? = some c) (hc : c ≠ sep) :
    ∃ ps p, pieces sep t = ps ++ [p] ∧ p.getLast? = some c := by
  obtain ⟨ps, p, hp⟩ : ∃ ps p, pieces sep t = ps ++ [p] :=
    ⟨_, _, (List.dropLast_concat_getLast (pieces_ne_nil sep t)).symm⟩
  have hjoined : joined sep (ps ++ [p]) = t := by rw [← hp, joined_pieces]
  have hne : p ≠ [] := by
    rintro rfl
    by_cases hps : ps = []
    · simp [← hjoined, hps, joined] at ht
    · have hlast : t.getLast? = some sep := by
        simp [← hjoined, joined_append_singleton sep [] hps]
      exact hc (Option.some.inj (ht.symm.trans hlast))
  have hlast : (joined sep (ps ++ [p])).getLast? = p.getLast? := getLast?_joined hne
  exact ⟨ps, p, hp, by rw [← hlast, hjoined, ht]⟩

/-- Where two texts meet, the last piece of the one and the first of the
other become one. -/
theorem pieces_append {sep : Char} {s t p q : Text} {ps qs : List Text}
    (hs : pieces sep s = ps ++ [p]) (ht : pieces sep t = q :: qs) :
    pieces sep (s ++ t) = ps ++ (p ++ q) :: qs := by
  induction s generalizing ps p with
  | nil =>
    obtain ⟨rfl, rfl⟩ : ps = [] ∧ p = [] := by
      simpa [pieces] using List.append_eq_singleton_iff.mp hs.symm
    exact ht
  | cons c rest ih =>
    obtain ⟨r, rs, hrest⟩ := List.exists_cons_of_ne_nil (pieces_ne_nil sep rest)
    by_cases hc : c = sep
    · rw [pieces, if_pos hc, hrest] at hs
      obtain ⟨ps, rfl, hps⟩ : ∃ ps', ps = [] :: ps' ∧ r :: rs = ps' ++ [p] := by
        cases ps with
        | nil => simp at hs
        | cons a ps => exact ⟨ps, by simp_all⟩
      rw [List.cons_append, pieces, if_pos hc, ih (hrest.trans hps)]
      rfl
    · rw [pieces, if_neg hc, hrest] at hs
      rw [List.cons_append, pieces, if_neg hc]
      cases ps with
      | nil =>
        obtain ⟨rfl, rfl⟩ : c :: r = p ∧ rs = [] := by simpa using hs
        rw [ih (show pieces sep rest = [] ++ [r] from hrest)]
        rfl
      | cons a ps =>
        obtain ⟨rfl, rfl⟩ : c :: r = a ∧ rs = ps ++ [p] := by simpa using hs
        rw [ih (show pieces sep rest = (r :: ps) ++ [p] from hrest)]
        rfl

end Text

end FileShell

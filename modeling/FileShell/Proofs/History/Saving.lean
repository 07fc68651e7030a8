/-
FileShell.Proofs.History.Saving — a history that is written to its file and
read back.

An escaped line has no newline in it, so the lines of the file are the
mark and the escaped lines (`rawLines_content`), and each of them stands
for the line that was escaped (`unescape_escape`). Only a carriage return
at the end of a line would be lost with the newline.

Lines that are read are added one by one (`addLines_escaped`), which
collapses and truncates them as if they were typed; lines that went
through that before go through it unchanged (`load_content`).
-/
import FileShell.Proofs.History.Adding
import FileShell.Proofs.Text.Lines

namespace FileShell

namespace History

/-! ## Escaped lines -/

theorem escape_cons (c : Char) (line : Text) : escape (c :: line) = escape [c] ++ escape line := by
  simp [escape]

theorem escape_append (s t : Text) : escape (s ++ t) = escape s ++ escape t :=
  List.flatMap_append

theorem unescape?_escape_append (c : Char) (rest : Text) :
    unescape? (escape [c] ++ rest) = (unescape? rest).map (c :: ·) := by
  by_cases hslash : c = '\\'
  · subst hslash
    rfl
  · by_cases hnewline : c = '\n'
    · subst hnewline
      rfl
    · simp [escape, unescape?, hslash, hnewline]

/-- An escaped line stands for the line. -/
theorem unescape?_escape (line : Text) : unescape? (escape line) = some line := by
  induction line with
  | nil => rfl
  | cons c line ih => rw [escape_cons, unescape?_escape_append, ih, Option.map_some]

theorem unescape_escape (line : Text) : unescape (escape line) = line := by
  rw [unescape, unescape?_escape, Option.getD_some]

theorem newline_notMem_escape (line : Text) : '\n' ∉ escape line := by
  simp only [escape, List.mem_flatMap, not_exists, not_and]
  intro c _
  split
  · decide
  · split
    · decide
    · next hnewline => simpa using Ne.symm hnewline

/-- Escaping puts no carriage return at the end. -/
theorem getLast?_of_escape {line : Text} (h : (escape line).getLast? = some '\r') :
    line.getLast? = some '\r' := by
  rcases List.eq_nil_or_concat' line with rfl | ⟨front, c, rfl⟩
  · cases h
  · have hlast : escape [c] =
        if c = '\\' then ['\\', '\\'] else if c = '\n' then ['\\', 'n'] else [c] :=
      List.append_nil _
    rw [escape_append, hlast] at h
    rw [List.getLast?_concat]
    split at h
    · simp [List.getLast?_append] at h
    · split at h
      · simp [List.getLast?_append] at h
      · rwa [List.getLast?_concat] at h

/-! ## The lines of the file -/

/-- A line of the file with its newline. -/
def fileLine (line : Text) : Bytes := Utf8.encode (line ++ ['\n'])

variable {line : Text}

theorem fileLine_eq (line : Text) : fileLine line = Utf8.encode line ++ [Lines.newline] := by
  rw [fileLine, Utf8.encode_append]
  rfl

theorem rawLines_fileLine (h : '\n' ∉ line) (rest : Bytes) :
    Lines.rawLines (fileLine line ++ rest) = fileLine line :: Lines.rawLines rest := by
  have hline : Lines.newline ∉ Utf8.encode line := by
    rwa [Utf8.mem_encode_iff Utf8.newline_ascii]
  rw [fileLine_eq, List.append_assoc, List.singleton_append, Lines.rawLines_line hline]

theorem rawLines_content (h : History) :
    Lines.rawLines h.content =
      fileLine marker :: h.entries.map fun e => fileLine (escape e) := by
  have hlines (es : List Text) :
      Lines.rawLines (Utf8.encode (es.flatMap fun e => escape e ++ ['\n'])) =
        es.map fun e => fileLine (escape e) := by
    induction es with
    | nil => rfl
    | cons e es ih =>
      rw [List.flatMap_cons, Utf8.encode_append, List.map_cons, ← ih]
      exact rawLines_fileLine (newline_notMem_escape e) _
  rw [content, Utf8.encode_append, ← hlines]
  exact rawLines_fileLine (by decide) _

theorem content_ne_nil (h : History) : h.content ≠ [] := by
  intro he
  have hlines := rawLines_content h
  rw [he] at hlines
  cases hlines

theorem decode?_fileLine (line : Text) : Utf8.decode? (fileLine line) = some (line ++ ['\n']) :=
  Utf8.decode?_eq_some_iff.mpr rfl

/-- A line of the file reads as it was, if it ends with no carriage return. -/
theorem decodeLossy_chomp_fileLine (h : line.getLast? ≠ some '\r') :
    Utf8.decodeLossy (Lines.chomp (fileLine line)) = line := by
  rw [fileLine_eq, Lines.chomp_line, Utf8.decodeLossy_withoutReturn, Utf8.decodeLossy_encode,
    Lines.withoutLast_eq_self_iff.mpr h]

/-! ## Reading -/

/-- Escaped lines are added as the lines they stand for. -/
theorem addLines_escaped {lines : List Text} (h : ∀ e ∈ lines, e.getLast? ≠ some '\r')
    (start : History) :
    addLines true (lines.map fun e => fileLine (escape e)) start = (lines.foldl add start, none) := by
  induction lines generalizing start with
  | nil => rfl
  | cons e lines ih =>
    obtain ⟨he, hlines⟩ := List.forall_mem_cons.mp h
    have hline : Utf8.decodeLossy (Lines.chomp (fileLine (escape e))) = escape e :=
      decodeLossy_chomp_fileLine (mt getLast?_of_escape he)
    rw [List.map_cons, addLines, decode?_fileLine, List.foldl_cons]
    simp only [hline, if_true, unescape_escape]
    exact ih hlines _

/-- What a file that was written reads as: its lines, added to none. -/
theorem load_of_content {h : History} (hlines : ∀ e ∈ h.entries, e.getLast? ≠ some '\r') :
    empty.load h.content = (⟨(h.entries.foldl add empty).entries, 0⟩, none) := by
  have hmarker : Utf8.decodeLossy (Lines.chomp (fileLine marker)) = marker :=
    decodeLossy_chomp_fileLine (by decide)
  rw [load, rawLines_content]
  simp only [decode?_fileLine, hmarker, if_true, addLines_escaped hlines]

/-- A line that is read back as it was: not empty, and without a carriage
return at its end, which would go with the newline. -/
structure IsWritable (line : Text) : Prop where
  ne_nil : line ≠ []
  last : line.getLast? ≠ some '\r'

/-- What was written of the newest of some collapsed lines is read back. -/
theorem load_content {lines : List Text} (h : ∀ e ∈ lines, IsWritable e) :
    empty.load (content ⟨newest (collapsed lines), 0⟩) = (⟨newest (collapsed lines), 0⟩, none) := by
  have hkept : ∀ e ∈ newest (collapsed lines), IsWritable e := fun e he =>
    h e (mem_of_mem_collapsed (mem_of_mem_newest he))
  have hread : ((newest (collapsed lines)).foldl add empty).entries = newest (collapsed lines) := by
    have hstart : empty.entries = newest (collapsed []) := rfl
    have hfull : (newest (collapsed lines)).filter (· ≠ []) = newest (collapsed lines) :=
      List.filter_eq_self.mpr fun e he => by simpa using (hkept e he).ne_nil
    rw [entries_foldl_add hstart, List.nil_append, hfull, collapsed_newest_collapsed,
      newest_newest]
  rw [load_of_content fun e he => (hkept e he).last, hread]

end History

end FileShell

/-
FileShell.Proofs.Path.Normality — absolute, lexically normal paths, said
without the function that makes them.

* `Path.IsOrdinary` — a name that is neither empty nor `.` nor `..` and
  holds no slash.
* `Path.IsNormal` — the path is written as a slash and ordinary names with
  single slashes between them.

A path gets to a command in four ways, and each keeps to `IsNormal`:
folding an absolute path (`isNormal_normal`), and so resolving an argument
(`isNormal_resolve`); stepping up (`isNormal_of_parent?`); and adding the
last name of a normal path (`isNormal_join`, `isOrdinary_of_fileName?`).

Folding is followed on its stack: over an absolute path it is always some
ordinary names on top of the root (`Rooted`), which is why a `..` never
survives there.
-/
import FileShell.Path.Normal
import FileShell.Proofs.Text.Pieces

namespace FileShell

namespace Path

/-- A name that stands for an entry of a directory and nothing else. -/
def IsOrdinary (n : Text) : Prop := n ≠ [] ∧ n ≠ ['.'] ∧ n ≠ ['.', '.'] ∧ '/' ∉ n

/-- Absolute and lexically normal: a root followed by ordinary names. -/
def IsNormal (p : Path) : Prop :=
  ∃ names : List Text, (∀ n ∈ names, IsOrdinary n) ∧ p.text = '/' :: Text.joined '/' names

theorem IsNormal.isAbsolute {p : Path} (h : p.IsNormal) : p.isAbsolute = true := by
  obtain ⟨names, _, htext⟩ := h
  simp [Path.isAbsolute, htext]

/-! ## Components -/

theorem exists_text_of_isAbsolute {p : Path} (h : p.isAbsolute = true) :
    ∃ rest, p.text = '/' :: rest := by
  unfold isAbsolute at h
  split at h
  · next rest e => exact ⟨rest, e⟩
  · cases h

theorem components_of_text {p : Path} {rest : Text} (h : p.text = '/' :: rest) :
    p.components = .root :: (Text.pieces '/' rest).filterMap ofPiece? := by
  simp [components, split, h]

/-- A piece between slashes stands for nothing, for `..`, or for itself,
and then it is ordinary. -/
theorem ofPiece?_cases {piece : Text} {c : Component} (hs : '/' ∉ piece)
    (h : ofPiece? piece = some c) :
    c = .parent ∨ ∃ n, IsOrdinary n ∧ c = .name n := by
  unfold ofPiece? at h
  split at h
  · cases h
  · next hfill =>
    split at h
    · exact .inl (Option.some.inj h).symm
    · next hup =>
      have hne : piece ≠ [] ∧ piece ≠ ['.'] := by simpa [isFiller] using hfill
      exact .inr ⟨piece, ⟨hne.1, hne.2, hup, hs⟩, (Option.some.inj h).symm⟩

/-! ## Folding -/

/-- A stack of ordinary names on top of the root. -/
def Rooted (stack : List Component) : Prop :=
  ∃ names : List Text, (∀ n ∈ names, IsOrdinary n) ∧ stack = names.map .name ++ [.root]

theorem rooted_foldStep {stack : List Component} (h : Rooted stack) {c : Component}
    (hc : c = .parent ∨ ∃ n, IsOrdinary n ∧ c = .name n) : Rooted (foldStep stack c) := by
  obtain ⟨names, hnames, rfl⟩ := h
  rcases hc with rfl | ⟨n, hn, rfl⟩
  · cases names with
    | nil => exact ⟨[], by simp, rfl⟩
    | cons m names =>
      exact ⟨names, fun k hk => hnames k (List.mem_cons_of_mem _ hk), rfl⟩
  · refine ⟨n :: names, ?_, rfl⟩
    intro k hk
    rcases List.mem_cons.mp hk with rfl | hk
    · exact hn
    · exact hnames k hk

theorem rooted_foldl {cs : List Component}
    (hcs : ∀ c ∈ cs, c = .parent ∨ ∃ n, IsOrdinary n ∧ c = .name n) :
    ∀ {stack : List Component}, Rooted stack → Rooted (cs.foldl foldStep stack) := by
  induction cs with
  | nil => intro stack h; exact h
  | cons c cs ih =>
    intro stack h
    have hstep : Rooted (foldStep stack c) := rooted_foldStep h (hcs c (by simp))
    exact ih (fun d hd => hcs d (List.mem_cons_of_mem _ hd)) hstep

/-- Folding an absolute path leaves the root and ordinary names. -/
theorem fold_of_isAbsolute {p : Path} (h : p.isAbsolute = true) :
    ∃ names : List Text, (∀ n ∈ names, IsOrdinary n) ∧
      fold p.components = .root :: names.map .name := by
  obtain ⟨rest, hrest⟩ := exists_text_of_isAbsolute h
  have hcs : ∀ c ∈ (Text.pieces '/' rest).filterMap ofPiece?,
      c = .parent ∨ ∃ n, IsOrdinary n ∧ c = .name n := by
    intro c hc
    obtain ⟨piece, hpiece, hof⟩ := List.mem_filterMap.mp hc
    exact ofPiece?_cases (Text.sep_notMem_of_mem_pieces hpiece) hof
  have hroot : Rooted [.root] := ⟨[], by simp, rfl⟩
  obtain ⟨names, hnames, hstack⟩ := rooted_foldl hcs hroot
  refine ⟨names.reverse, fun n hn => hnames n (List.mem_reverse.mp hn), ?_⟩
  rw [fold, components_of_text hrest, List.foldl_cons]
  show (List.foldl foldStep [.root] _).reverse = _
  rw [hstack]
  simp

/-- A root and names are spelled with a slash in front of each name. -/
theorem text_ofComponents (names : List Text) :
    (ofComponents (.root :: names.map .name)).text = '/' :: Text.joined '/' names := by
  simp [ofComponents, Function.comp_def, Component.text]

/-- Folding an absolute path makes it normal. -/
theorem isNormal_normal {p : Path} (h : p.isAbsolute = true) : p.normal.IsNormal := by
  obtain ⟨names, hnames, hfold⟩ := fold_of_isAbsolute h
  refine ⟨names, hnames, ?_⟩
  simp only [normal, hfold, text_ofComponents]

/-! ## Joining -/

theorem isAbsolute_join {dir : Path} (h : dir.isAbsolute = true) (p : Path) :
    (dir.join p).isAbsolute = true := by
  obtain ⟨rest, hrest⟩ := exists_text_of_isAbsolute h
  unfold join
  split
  · assumption
  · split
    · next hlast => simp [hrest] at hlast
    · simp [isAbsolute, hrest]
    · simp [isAbsolute, hrest]

/-- An argument taken from an absolute directory resolves to a normal path. -/
theorem isNormal_resolve {dir : Path} (h : dir.isAbsolute = true) (arg : Text) :
    (dir.resolve arg).IsNormal := isNormal_normal (isAbsolute_join h ⟨arg⟩)

/-- An ordinary name alone is a relative path. -/
theorem IsOrdinary.isAbsolute {n : Text} (hn : IsOrdinary n) : Path.isAbsolute ⟨n⟩ = false := by
  cases hcase : Path.isAbsolute ⟨n⟩ with
  | false => rfl
  | true =>
    obtain ⟨rest, hrest⟩ := exists_text_of_isAbsolute hcase
    exact absurd (show '/' ∈ n by rw [show n = '/' :: rest from hrest]; simp) hn.2.2.2

/-- A normal path with one more ordinary name is normal. -/
theorem isNormal_join {dir : Path} (h : dir.IsNormal) {n : Text} (hn : IsOrdinary n) :
    (dir.join ⟨n⟩).IsNormal := by
  obtain ⟨names, hnames, htext⟩ := h
  have hrel : isAbsolute ⟨n⟩ = false := hn.isAbsolute
  have hmem : ∀ m ∈ names ++ [n], IsOrdinary m := by
    intro m hm
    rcases List.mem_append.mp hm with hm | hm
    · exact hnames m hm
    · rw [List.mem_singleton.mp hm]; exact hn
  refine ⟨names ++ [n], hmem, ?_⟩
  rcases List.eq_nil_or_concat names with rfl | ⟨init, last, rfl⟩
  · simp [join, hrel, htext, Text.joined]
  · rw [List.concat_eq_append] at htext ⊢
    have hlast : IsOrdinary last := hnames last (by simp)
    have hend : dir.text.getLast? = last.getLast? := by
      have hjoined : (Text.joined '/' (init ++ [last])).getLast? = last.getLast? :=
        Text.getLast?_joined hlast.1
      have hne : Text.joined '/' (init ++ [last]) ≠ [] := by
        intro hnil
        rw [hnil] at hjoined
        exact hlast.1 (List.getLast?_eq_none_iff.mp hjoined.symm)
      rw [htext, List.getLast?_cons_of_ne_nil hne, hjoined]
    have hslash : last.getLast? ≠ some '/' := fun he =>
      hlast.2.2.2 (List.mem_of_getLast? he)
    rw [join, if_neg (by simp [hrel]), hend]
    rw [Text.joined_append_singleton '/' n (by simp)]
    split
    · next hnone => exact absurd (List.getLast?_eq_none_iff.mp hnone) hlast.1
    · next hsome => exact absurd hsome hslash
    · simp [htext]

/-! ## The path above, and the last name -/

theorem pieces_names {names : List Text} (hne : names ≠ [])
    (h : ∀ n ∈ names, IsOrdinary n) : Text.pieces '/' (Text.joined '/' names) = names :=
  Text.pieces_joined hne fun n hn => (h n hn).2.2.2

theorem isFiller_of_isOrdinary {n : Text} (h : IsOrdinary n) : isFiller n = false := by
  simp [isFiller, h.1, h.2.1]

/-- Names that are all ordinary hold nothing to skip. -/
theorem dropWhile_isFiller {names : List Text} (h : ∀ n ∈ names, IsOrdinary n) :
    names.dropWhile isFiller = names := by
  cases names with
  | nil => rfl
  | cons n names => simp [isFiller_of_isOrdinary (h n (by simp))]

/-- The path above one that is written from names is written without the last. -/
theorem parent?_of_text {p : Path} {init : List Text} {last : Text}
    (h : ∀ n ∈ init ++ [last], IsOrdinary n)
    (htext : p.text = '/' :: Text.joined '/' (init ++ [last])) :
    p.parent? = some ⟨'/' :: Text.joined '/' init⟩ := by
  have hinit : ∀ n ∈ init.reverse, IsOrdinary n := fun n hn =>
    h n (List.mem_append_left _ (List.mem_reverse.mp hn))
  have hrev : ∀ n ∈ (init ++ [last]).reverse, IsOrdinary n := fun n hn =>
    h n (List.mem_reverse.mp hn)
  have hsplit : p.split = (some .root, init ++ [last]) := by
    simp [split, htext, pieces_names (by simp) h]
  simp only [parent?, hsplit, dropWhile_isFiller hrev]
  simp [dropWhile_isFiller hinit, withBody]

/-- The path above a normal one is normal. -/
theorem isNormal_of_parent? {p q : Path} (h : p.IsNormal) (hq : p.parent? = some q) :
    q.IsNormal := by
  obtain ⟨names, hnames, htext⟩ := h
  rcases List.eq_nil_or_concat names with rfl | ⟨init, last, rfl⟩
  · simp [parent?, split, htext, Text.joined, Text.pieces, isFiller] at hq
  · rw [List.concat_eq_append] at htext hnames
    have hup := parent?_of_text hnames htext
    refine ⟨init, fun n hn => hnames n (List.mem_append_left _ hn), ?_⟩
    rw [← Option.some.inj (hup.symm.trans hq)]

/-- The last name of a normal path is ordinary. -/
theorem isOrdinary_of_fileName? {p : Path} {n : Text} (h : p.IsNormal)
    (hn : p.fileName? = some n) : IsOrdinary n := by
  obtain ⟨rest, hrest⟩ := exists_text_of_isAbsolute h.isAbsolute
  unfold fileName? at hn
  split at hn
  · next m hlast =>
    rw [components_of_text hrest] at hlast
    rcases List.mem_cons.mp (List.mem_of_getLast? hlast) with hroot | hmem
    · cases hroot
    · obtain ⟨piece, hpiece, hof⟩ := List.mem_filterMap.mp hmem
      rcases ofPiece?_cases (Text.sep_notMem_of_mem_pieces hpiece) hof with hp | ⟨k, hk, he⟩
      · cases hp
      · cases he
        rw [← Option.some.inj hn]
        exact hk
  · cases hn

/-! ## Where a session starts -/

/-- A session starts in a normal directory: one that is given absolute, or
any one while the process directory, an absolute path, can be asked for. -/
theorem isNormal_startIn {process : Option Path} {dir : Path}
    (hprocess : ∀ p, process = some p → p.isAbsolute = true)
    (h : dir.isAbsolute = true ∨ process.isSome = true) : (startIn process dir).IsNormal := by
  unfold startIn
  split
  · next habs => exact isNormal_normal habs
  · next hrel =>
    cases hp : process with
    | none => simp [hrel, hp] at h
    | some p => exact isNormal_normal (isAbsolute_join (hprocess p hp) dir)

end Path

end FileShell

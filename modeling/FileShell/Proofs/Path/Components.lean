/-
FileShell.Proofs.Path.Components — the components of a path, against its
text.

A path's text holds more than its components do: fillers, repeated slashes,
a slash at the end. What is needed of the difference is this.

* The components are the head and what the pieces of the whole text stand
  for, the `body` (`components_eq`). So a character of the text is a slash,
  a dot, or in one of them (`exists_mem_component`), and what is in them is
  in the text (`mem_text_of_mem_component`).
* Joining puts components behind those of the directory (`body_join`,
  `components_join`), and making a path absolute leaves those of the
  process directory and of the path (`components_absolute`): no `..` is
  folded there.
* Folding leaves a part of the components (`fold_sublist`), and a path of
  fewer names is no longer than the path they are taken from
  (`text_sublist`).
-/
import Mathlib.Data.List.Basic
import FileShell.Proofs.Path.Normality

namespace FileShell

namespace Text

/-- Fewer pieces joined are a part of all of them joined. -/
theorem joined_sublist {sep : Char} {ps qs : List Text} (h : qs.Sublist ps) :
    (joined sep qs).Sublist (joined sep ps) := by
  induction h with
  | slnil => exact .slnil
  | @cons qs ps p h ih =>
    cases ps with
    | nil => rw [List.sublist_nil.mp h]; exact List.nil_sublist p
    | cons q ps => exact ih.trans ((List.sublist_cons_self sep _).trans
        (List.sublist_append_right p _))
  | @cons_cons qs ps p h ih =>
    cases qs with
    | nil => cases ps with
      | nil => exact List.Sublist.refl p
      | cons q ps => exact List.sublist_append_left p _
    | cons q qs => cases ps with
      | nil => exact absurd h (by simp)
      | cons r ps => exact (ih.cons_cons sep).append_left p

/-- What is in a text is in one of its pieces, but for the separator. -/
theorem exists_mem_pieces {sep c : Char} {t : Text} (hc : c ∈ t) (hsep : c ≠ sep) :
    ∃ p ∈ pieces sep t, c ∈ p :=
  Classical.byContradiction fun hnone => by
    have hout : c ∉ joined sep (pieces sep t) :=
      notMem_joined hsep fun p hp hcp => hnone ⟨p, hp, hcp⟩
    rw [joined_pieces] at hout
    exact hout hc

end Text

namespace Path

/-! ## Components and text -/

/-- What a component adds to a path that goes on: a name, or a `..`. -/
def Component.IsStep (c : Component) : Prop := c = .parent ∨ ∃ n, IsOrdinary n ∧ c = .name n

theorem ofPiece?_eq_none_iff {piece : Text} : ofPiece? piece = none ↔ isFiller piece = true := by
  unfold ofPiece?
  split
  · next hfiller => exact iff_of_true rfl hfiller
  · next hplain => exact iff_of_false (by split <;> nofun) hplain

theorem ofPiece?_of_isOrdinary {n : Text} (h : IsOrdinary n) : ofPiece? n = some (.name n) := by
  rw [ofPiece?, isFiller_of_isOrdinary h, if_neg (by simp), if_neg h.2.2.1]

/-- A component comes from the piece that spells it. -/
theorem text_of_ofPiece? {piece : Text} {c : Component} (h : ofPiece? piece = some c) :
    c.text = piece := by
  unfold ofPiece? at h
  split at h
  · cases h
  · split at h
    · next hup => rw [← Option.some.inj h, hup]; rfl
    · rw [← Option.some.inj h]; rfl

theorem map_text_ofPiece? (ps : List Text) :
    (ps.filterMap ofPiece?).map Component.text = ps.filter fun p => !isFiller p := by
  induction ps with
  | nil => rfl
  | cons p ps ih =>
    cases hp : ofPiece? p with
    | none =>
      simp [hp, ih, ofPiece?_eq_none_iff.mp hp]
    | some c =>
      have hplain : isFiller p ≠ true := fun hfiller => by
        simp [ofPiece?_eq_none_iff.mpr hfiller] at hp
      simp [hp, ih, hplain, text_of_ofPiece? hp]

/-- What a path asks for behind its head: names and `..`. -/
def body (p : Path) : List Component := (Text.pieces '/' p.text).filterMap ofPiece?

/-- The head of a path is a filler among the pieces of its text. -/
theorem components_eq (p : Path) : p.components = p.split.1.toList ++ p.body := by
  obtain ⟨text⟩ := p
  simp only [components, split, body]
  split <;> simp [Text.pieces, ofPiece?, isFiller]

theorem isStep_of_mem_body {p : Path} {c : Component} (h : c ∈ p.body) : c.IsStep := by
  obtain ⟨piece, hpiece, hof⟩ := List.mem_filterMap.mp h
  exact ofPiece?_cases (Text.sep_notMem_of_mem_pieces hpiece) hof

/-- The head is a root or a `.`, and everything behind it is a step. -/
theorem filter_components (p : Path) :
    (p.components.filter fun c => c ≠ .root ∧ c ≠ .current) = p.body := by
  have hhead : (p.split.1.toList.filter fun c => c ≠ .root ∧ c ≠ .current) = [] := by
    obtain ⟨text⟩ := p
    simp only [split]
    split <;> simp
  rw [components_eq, List.filter_append, hhead, List.nil_append, List.filter_eq_self]
  intro c hc
  rcases isStep_of_mem_body hc with rfl | ⟨n, _, rfl⟩ <;> simp

theorem components_of_isAbsolute {p : Path} (h : p.isAbsolute = true) :
    p.components = .root :: p.body := by
  obtain ⟨rest, hrest⟩ := exists_text_of_isAbsolute h
  rw [components_of_text hrest, body, hrest]
  simp [Text.pieces, ofPiece?, isFiller]

/-- The components of a path that is written from its components. -/
theorem components_ofComponents {names : List Text} (h : ∀ n ∈ names, IsOrdinary n) :
    (ofComponents (.root :: names.map .name)).components = .root :: names.map .name := by
  rw [components_of_text (text_ofComponents names)]
  by_cases hne : names = []
  · subst hne
    rfl
  · rw [pieces_names hne h, List.filterMap_eq_map_iff_forall_eq_some.mpr]
    exact fun n hn => ofPiece?_of_isOrdinary (h n hn)

/-- A character of a path is a slash, a dot, or in one of its components. -/
theorem exists_mem_component {p : Path} {c : Char} (hc : c ∈ p.text) (hslash : c ≠ '/')
    (hdot : c ≠ '.') : ∃ k ∈ p.body, c ∈ k.text := by
  obtain ⟨piece, hpiece, hmem⟩ := Text.exists_mem_pieces hc hslash
  cases hof : ofPiece? piece with
  | none =>
    have hfiller : piece = [] ∨ piece = ['.'] := by
      simpa [isFiller] using ofPiece?_eq_none_iff.mp hof
    rcases hfiller with rfl | rfl <;> simp [hdot] at hmem
  | some k => exact ⟨k, List.mem_filterMap.mpr ⟨piece, hpiece, hof⟩, by rwa [text_of_ofPiece? hof]⟩

theorem mem_text_of_mem_component {p : Path} {c : Char} {k : Component} (hk : k.IsStep)
    (hmem : k ∈ p.components) (hc : c ∈ k.text) : c ∈ p.text := by
  have hbody : k ∈ p.body := by
    rw [← filter_components, List.mem_filter]
    refine ⟨hmem, ?_⟩
    rcases hk with rfl | ⟨n, _, rfl⟩ <;> simp
  obtain ⟨piece, hpiece, hof⟩ := List.mem_filterMap.mp hbody
  exact Text.mem_of_mem_pieces hpiece (text_of_ofPiece? hof ▸ hc)

/-! ## Joining -/

/-- A relative path puts its names and `..` behind those of any directory. -/
theorem body_join (dir : Path) {p : Path} (h : p.isAbsolute = false) :
    (dir.join p).body = dir.body ++ p.body := by
  rw [join, if_neg (by simp [h])]
  split
  · next hnone => simp [body, List.getLast?_eq_none_iff.mp hnone, Text.pieces, ofPiece?, isFiller]
  · next hslash =>
    obtain ⟨init, hinit⟩ := List.getLast?_eq_some_iff.mp hslash
    rw [body, body, body, hinit, List.append_assoc, List.singleton_append, Text.pieces_append_sep,
      Text.pieces_append_sep]
    simp [Text.pieces, ofPiece?, isFiller]
  · rw [body, body, body, Text.pieces_append_sep, List.filterMap_append]

/-- A relative path puts what its pieces stand for behind an absolute directory. -/
theorem components_join {dir p : Path} (hdir : dir.isAbsolute = true)
    (hp : p.isAbsolute = false) :
    (dir.join p).components = dir.components ++ p.body := by
  rw [components_of_isAbsolute (isAbsolute_join hdir p), components_of_isAbsolute hdir,
    List.cons_append, body_join dir hp]

/-- Steps joined one by one are the components that a path gains. -/
theorem components_foldl_join {cs : List Component} (hcs : ∀ c ∈ cs, c.IsStep) {dir : Path}
    (hdir : dir.isAbsolute = true) :
    (cs.foldl (fun dir c => dir.join ⟨c.text⟩) dir).isAbsolute = true ∧
      (cs.foldl (fun dir c => dir.join ⟨c.text⟩) dir).components = dir.components ++ cs := by
  induction cs generalizing dir with
  | nil => simp [hdir]
  | cons c cs ih =>
    obtain ⟨hc, hcs⟩ := List.forall_mem_cons.mp hcs
    have hone : (dir.join ⟨c.text⟩).components = dir.components ++ [c] := by
      rcases hc with rfl | ⟨n, hn, rfl⟩
      · exact components_join hdir rfl
      · simp only [Component.text]
        rw [components_join hdir hn.isAbsolute, body, Text.pieces_of_notMem hn.2.2.2]
        simp [ofPiece?_of_isOrdinary hn]
    have hrest := ih hcs (isAbsolute_join hdir ⟨c.text⟩)
    rwa [hone, List.append_assoc] at hrest

/-- A path made absolute has the components of the process directory, where
it was relative, and its own: every `..` is still there. -/
theorem components_absolute {process : Path} (hprocess : process.isAbsolute = true) (p : Path) :
    (absolute process p).isAbsolute = true ∧
      (absolute process p).components =
        (if p.isAbsolute then [.root] else process.components) ++ p.body := by
  obtain ⟨base, hbase, hcomponents, heq⟩ : ∃ base : Path, base.isAbsolute = true ∧
      base.components = (if p.isAbsolute then [.root] else process.components) ∧
      absolute process p =
        (let whole := p.body.foldl (fun dir c => dir.join ⟨c.text⟩) base
        if p.text.getLast? = some '/' then whole.join ⟨[]⟩ else whole) := by
    rw [← filter_components]
    refine ⟨_, ?_, ?_, rfl⟩
    · split
      · rfl
      · split <;> rfl
      · rfl
      · exact hprocess
    · split
      · next htext => simp only [isAbsolute, htext]; rfl
      · next htext => simp only [isAbsolute, htext]; split <;> rfl
      · next htext => simp only [isAbsolute, htext]; rfl
      · next hrelative =>
        rw [if_neg]
        intro habsolute
        obtain ⟨rest, hrest⟩ := exists_text_of_isAbsolute habsolute
        exact hrelative rest hrest
  obtain ⟨hwhole, hsteps⟩ := components_foldl_join (fun c hc => isStep_of_mem_body hc) hbase
  rw [heq, ← hcomponents, ← hsteps]
  simp only
  split
  · refine ⟨isAbsolute_join hwhole _, ?_⟩
    rw [components_join hwhole rfl]
    simp [body, Text.pieces, ofPiece?, isFiller]
  · exact ⟨hwhole, rfl⟩

/-! ## Folding -/

theorem foldStep_sublist (stack : List Component) (c : Component) :
    (foldStep stack c).Sublist (c :: stack) := by
  cases c with
  | root => exact .refl _
  | current => exact List.sublist_cons_self _ _
  | name n => exact .refl _
  | parent =>
    simp only [foldStep]
    split
    · exact (List.sublist_cons_self _ _).trans (List.sublist_cons_self _ _)
    · exact List.sublist_cons_self _ _
    · exact .refl _

/-- Folding leaves a part of the components, in order. -/
theorem fold_sublist (cs : List Component) : (fold cs).Sublist cs := by
  have hstack : ∀ stack : List Component,
      (cs.foldl foldStep stack).Sublist (cs.reverse ++ stack) := by
    induction cs with
    | nil => intro stack; exact .refl stack
    | cons c cs ih =>
      intro stack
      rw [List.foldl_cons, List.reverse_cons, List.append_assoc, List.singleton_append]
      exact (ih (foldStep stack c)).trans ((foldStep_sublist stack c).append_left _)
  have hfold := (hstack []).reverse
  rwa [List.append_nil, List.reverse_reverse] at hfold

theorem fold_append (cs : List Component) (c : Component) :
    fold (cs ++ [c]) = (foldStep (fold cs).reverse c).reverse := by
  simp [fold]

theorem fold_append_name (cs : List Component) (n : Text) :
    fold (cs ++ [.name n]) = fold cs ++ [.name n] := by
  simp [fold_append, foldStep]

/-- A `..` takes off the name in front of it. -/
theorem fold_append_parent {cs init : List Component} {n : Text}
    (h : fold cs = init ++ [.name n]) : fold (cs ++ [.parent]) = init := by
  simp [fold_append, h, foldStep]

/-- A `..` at the root stays there. -/
theorem fold_append_parent_root {cs : List Component} (h : fold cs = [.root]) :
    fold (cs ++ [.parent]) = [.root] := by
  simp [fold_append, h, foldStep]

/-- Some of the names of a path are spelled by a part of its text. -/
theorem text_sublist {p : Path} (h : p.isAbsolute = true) {names : List Text}
    (hnames : List.Sublist (.root :: names.map .name) p.components) :
    (ofComponents (.root :: names.map .name)).text.Sublist p.text := by
  obtain ⟨rest, hrest⟩ := exists_text_of_isAbsolute h
  rw [components_of_text hrest, List.cons_sublist_cons] at hnames
  have hpieces : names.Sublist (Text.pieces '/' rest) := by
    have htexts := hnames.map Component.text
    rw [map_text_ofPiece?, List.map_map, show Component.text ∘ Component.name = id from rfl,
      List.map_id] at htexts
    exact htexts.trans List.filter_sublist
  rw [text_ofComponents, hrest, ← Text.joined_pieces '/' rest]
  exact (Text.joined_sublist hpieces).cons_cons '/'

end Path

end FileShell

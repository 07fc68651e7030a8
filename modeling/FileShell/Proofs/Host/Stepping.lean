/-
FileShell.Proofs.Host.Stepping — the steps of a folded path, and of the
path above it.

A folded path is written from names and `..` with single slashes between
them, so it is walked component by component and never ends in a slash
(`getLast?_steps_normal`). The path above it is written without the last
component, and is walked without the last step (`steps_above`). Two folded
paths have nothing to take away: the root, which has no path above it, and
a lone `.`, which like a lone name or `..` stands below the empty path.
-/
import FileShell.Proofs.Host.Folding
import FileShell.Proofs.Path.Congruence

namespace FileShell

namespace Path

/-- A component that is written is no filler. -/
theorem Component.IsStep.isFiller_text {c : Component} (h : c.IsStep) :
    isFiller c.text = false := by
  rcases h with rfl | ⟨n, hn, rfl⟩
  · rfl
  · exact isFiller_of_isOrdinary hn

section

variable {cs : List Component} (hcs : ∀ c ∈ cs, c.IsStep)
include hcs

/-- A path that is written from steps has no head. -/
theorem split_ofComponents (hne : cs ≠ []) :
    (ofComponents cs).split = (none, cs.map Component.text) := by
  have hpieces := pieces_ofComponents hcs hne
  have hrelative := isAbsolute_ofComponents hcs
  have hdot (rest : List Text) : cs.map Component.text ≠ ['.'] :: rest := by
    intro hdot
    obtain ⟨c, cs', rfl, hc, -⟩ := List.map_eq_cons_iff.mp hdot
    have hfiller := (hcs c (by simp)).isFiller_text
    rw [hc] at hfiller
    cases hfiller
  rw [split]
  split
  · next rest htext =>
    rw [isAbsolute, htext] at hrelative
    cases hrelative
  · next htext =>
    rw [htext] at hpieces
    exact absurd hpieces.symm (hdot [])
  · next rest htext =>
    rw [htext] at hpieces
    exact absurd (hpieces.symm.trans (Text.pieces_append_sep '/' ['.'] rest)) (hdot _)
  · exact congrArg (Prod.mk none) hpieces

end

/-- The path above one that is written from steps is written without the last. -/
theorem parent?_ofComponents {cs : List Component} {c : Component}
    (hcs : ∀ k ∈ cs ++ [c], k.IsStep) :
    (ofComponents (cs ++ [c])).parent? = some (ofComponents cs) := by
  have hcs' : ∀ k ∈ cs, k.IsStep := fun k hk => hcs k (List.mem_append_left _ hk)
  have hbefore : (cs.map Component.text).reverse.dropWhile isFiller =
      (cs.map Component.text).reverse := by
    cases hrev : (cs.map Component.text).reverse with
    | nil => rfl
    | cons t rest =>
      obtain ⟨k, hk, rfl⟩ := List.mem_map.mp
        (List.mem_reverse.mp (hrev ▸ List.mem_cons_self : t ∈ (cs.map Component.text).reverse))
      rw [List.dropWhile_cons_of_neg (by simp [(hcs' k hk).isFiller_text])]
  have hsplit : (ofComponents (cs ++ [c])).split = (none, cs.map Component.text ++ [c.text]) := by
    rw [split_ofComponents hcs (by simp), List.map_append, List.map_singleton]
  have hlast : isFiller c.text = false := (hcs c (by simp)).isFiller_text
  have hup : ofComponents cs = withBody none (cs.map Component.text) :=
    congrArg Path.mk (text_ofComponents_of_isStep hcs')
  simp [parent?, hsplit, hlast, hbefore, hup]

end Path

namespace Host

open FileShell.Path (Component IsOrdinary ofComponents)

/-! ## Written components, walked -/

theorem ofPiece?_text {c : Component} (hc : c.IsStep) : Step.ofPiece? c.text = stepOf? c := by
  rcases hc with rfl | ⟨n, hn, rfl⟩
  · rfl
  · rw [Component.text, Step.ofPiece?, if_neg hn.1, if_neg hn.2.1, if_neg hn.2.2.1, stepOf?]

/-- A path that is written from steps is walked step by step. -/
theorem steps_of_isStep {cs : List Component} (hcs : ∀ c ∈ cs, c.IsStep) :
    steps (ofComponents cs) = cs.filterMap stepOf? := by
  rcases List.eq_nil_or_concat cs with rfl | ⟨init, last, rfl⟩
  · rfl
  · rw [List.concat_eq_append] at hcs ⊢
    have hlast : last.text.getLast? ≠ some '/' := fun hend =>
      (hcs last (by simp)).slash_notMem (List.mem_of_getLast? hend)
    have hempty : last.text ≠ [] := fun hempty => by
      have hfiller := (hcs last (by simp)).isFiller_text
      rw [hempty] at hfiller
      cases hfiller
    simp only [steps, Path.pieces_ofComponents hcs (by simp), List.filterMap_map]
    rw [if_neg]
    · exact List.filterMap_congr fun c hc => ofPiece?_text (hcs c hc)
    · rintro ⟨-, hslash⟩
      rw [Path.text_ofComponents_of_isStep hcs, List.map_append, List.map_singleton,
        Text.getLast?_joined hempty] at hslash
      exact hlast hslash

theorem exists_stepOf? {c : Component} (hc : c.IsStep) :
    ∃ step, stepOf? c = some step ∧ step ≠ .slash := by
  rcases hc with rfl | ⟨n, -, rfl⟩
  · exact ⟨.up, rfl, by simp⟩
  · exact ⟨.name n, rfl, by simp⟩

/-! ## The path above -/

/-- The path above one, if there is one, takes all its steps but the last,
unless it is the empty path, and the last asks for more than a directory. -/
def StepsAbove (p : Path) : Prop :=
  (p.parent? = none ∧ p.isAbsolute = true ∧ steps p = []) ∨
    ∃ up last, p.parent? = some up ∧ last ≠ .slash ∧
      ((up.text = [] ∧ steps p = [last]) ∨
        (up.isAbsolute = p.isAbsolute ∧ steps p = steps up ++ [last]))

/-- A folded path is walked by the path above it and one step more. -/
theorem steps_above (p : Path) : StepsAbove p.normal := by
  rw [Path.normal_eq_written]
  rcases Path.isShaped_stack p with hrooted | hclimbing
  · obtain ⟨names, hnames, -, hwritten⟩ := Path.written_of_rooted hrooted
    rw [hwritten]
    rcases List.eq_nil_or_concat names with rfl | ⟨init, last, rfl⟩
    · exact .inl ⟨rfl, rfl, rfl⟩
    · rw [List.concat_eq_append] at hnames ⊢
      have hup := Path.parent?_of_text hnames (Path.text_ofComponents _)
      have hinit : ∀ n ∈ init, IsOrdinary n := fun n hn => hnames n (List.mem_append_left _ hn)
      rw [← Path.text_ofComponents] at hup
      refine .inr ⟨_, .name last, hup, by simp, .inr ⟨rfl, ?_⟩⟩
      rw [steps_ofComponents hnames]
      exact (List.map_append).trans (congrArg (· ++ _) (steps_ofComponents hinit).symm)
  · have hsteps := Path.isStep_of_climbing hclimbing
    rw [Path.written]
    split
    · exact .inr ⟨⟨[]⟩, .stay, rfl, by simp, .inl ⟨rfl, rfl⟩⟩
    · next hne =>
      obtain ⟨init, last, hcs⟩ := (List.eq_nil_or_concat p.stack.reverse).resolve_left hne
      rw [List.concat_eq_append] at hcs
      rw [hcs] at hsteps ⊢
      have hinit : ∀ c ∈ init, c.IsStep := fun c hc => hsteps c (List.mem_append_left _ hc)
      obtain ⟨step, hstep, hslash⟩ := exists_stepOf? (hsteps last (by simp))
      have hwalk : steps (ofComponents (init ++ [last])) = steps (ofComponents init) ++ [step] := by
        rw [steps_of_isStep hsteps, steps_of_isStep hinit, List.filterMap_append,
          List.filterMap_cons_some hstep, List.filterMap_nil]
      refine .inr ⟨_, step, Path.parent?_ofComponents hsteps, hslash, .inr ⟨?_, hwalk⟩⟩
      rw [Path.isAbsolute_ofComponents hinit, Path.isAbsolute_ofComponents hsteps]

/-- A folded path does not end in a slash. -/
theorem getLast?_steps_normal (p : Path) : (steps p.normal).getLast? ≠ some .slash := by
  rcases steps_above p with ⟨-, -, hsteps⟩ | ⟨up, last, -, hslash, ⟨-, hsteps⟩ | ⟨-, hsteps⟩⟩
  · simp [hsteps]
  · simpa [hsteps] using hslash
  · simpa [hsteps] using hslash

end Host

end FileShell

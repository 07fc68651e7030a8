/-
FileShell.Proofs.Line.Rendering — which invocations a line can ask for, and
a line that asks for each of them.

* `Invocation.WellFormed` says, without the parser, what can be written:
  words without spaces and bars, a name that does not start with white
  space, arguments that no operator hides among, and an end that trimming
  leaves alone.
* `Invocation.render` writes an invocation down.

Every invocation read off a line is well formed, and a well-formed one is
what its own line says (`invocations_image`).

A word may hold a tab, since only U+0020 ends a token. `>>` may be an
argument where `>` redirects, since `>` is looked for first; then the
target may be an operator too. A redirection is written with one more
token behind it: the parser drops that token, and without it a target that
ends in white space would lose its end.
-/
import FileShell.Proofs.Line.Operators
import FileShell.Proofs.Line.Tokens

namespace FileShell

/-- A text that can stand as one token of a line. -/
def Text.IsWord (t : Text) : Prop := t ≠ [] ∧ ' ' ∉ t ∧ '|' ∉ t

instance (t : Text) : Decidable t.IsWord := inferInstanceAs (Decidable (_ ∧ _ ∧ _))

/-- Decided on the one character there may be, and not on all characters. -/
instance (priority := high) decidableForallNotBlank (o : Option Char) :
    Decidable (∀ c ∈ o, Text.isBlank c = false) := Option.decidableForallMem o

namespace Invocation

/-! ## What can be written -/

/-- The operators among the arguments, the target and the end of the line
leave the arguments and the redirection what they are. -/
def OperatorsFit (i : Invocation) : Prop :=
  match i.redirect with
  | none =>
    ['>'] ∉ i.args ∧ ['>', '>'] ∉ i.args ∧
      ∀ t ∈ (i.name :: i.args).getLast?, ∀ c ∈ t.getLast?, Text.isBlank c = false
  | some ⟨.overwrite, _⟩ => ['>'] ∉ i.args
  | some ⟨.append, target⟩ => ['>'] ∉ i.args ∧ ['>', '>'] ∉ i.args ∧ target ≠ ['>']

instance (i : Invocation) : Decidable i.OperatorsFit :=
  match i with
  | ⟨_, _, none⟩ => inferInstanceAs (Decidable (_ ∧ _ ∧ _))
  | ⟨_, _, some ⟨.overwrite, _⟩⟩ => inferInstanceAs (Decidable (_ ∉ _))
  | ⟨_, _, some ⟨.append, _⟩⟩ => inferInstanceAs (Decidable (_ ∧ _ ∧ _))

/-- An invocation that some line asks for. -/
structure WellFormed (i : Invocation) : Prop where
  name : i.name.IsWord
  args : ∀ a ∈ i.args, a.IsWord
  target : ∀ r ∈ i.redirect, r.target.IsWord
  start : ∀ c ∈ i.name.head?, Text.isBlank c = false
  operators : i.OperatorsFit

instance (i : Invocation) : Decidable i.WellFormed :=
  decidable_of_iff (i.name.IsWord ∧ (∀ a ∈ i.args, a.IsWord) ∧
      (∀ r ∈ i.redirect, r.target.IsWord) ∧
      (∀ c ∈ i.name.head?, Text.isBlank c = false) ∧ i.OperatorsFit)
    ⟨fun ⟨h₁, h₂, h₃, h₄, h₅⟩ => ⟨h₁, h₂, h₃, h₄, h₅⟩,
      fun ⟨h₁, h₂, h₃, h₄, h₅⟩ => ⟨h₁, h₂, h₃, h₄, h₅⟩⟩

/-- The tokens an invocation is written with. -/
def words (i : Invocation) : List Text :=
  match i.redirect with
  | none => i.name :: i.args
  | some r => i.name :: (i.args ++ [r.mode.operator, r.target, ['x']])

/-- An invocation written down. -/
def render (i : Invocation) : Text := Text.joined ' ' i.words

end Invocation

namespace Line

open Invocation

/-! ## Reading one segment -/

theorem entry_eq_ok_iff (segment : Text) (i : Invocation) :
    entry? segment = some (.ok i) ↔
      ∃ ts, tokens segment = i.name :: ts ∧ Redirects ts i.args i.redirect := by
  unfold entry? invocation?
  constructor
  · intro h
    cases htokens : tokens segment with
    | nil => simp [htokens] at h
    | cons name ts =>
      rw [htokens] at h
      cases hred : redirection ts with
      | error f => simp [hred] at h
      | ok parts =>
        obtain ⟨args, redirect⟩ := parts
        obtain rfl : ⟨name, args, redirect⟩ = i := by simpa [hred] using h
        exact ⟨ts, rfl, (redirection_eq_ok_iff _ _ _).mp hred⟩
  · rintro ⟨ts, htokens, hred⟩
    rw [htokens]
    simp [(redirection_eq_ok_iff _ _ _).mpr hred]

/-- Every token of a segment of a line is a word. -/
theorem isWord_of_mem_tokens {line segment : Text} (hsegment : segment ∈ segments line) {t : Text}
    (ht : t ∈ tokens segment) : t.IsWord := by
  obtain ⟨hne, hspace⟩ := mem_tokens ht
  refine ⟨hne, hspace, fun hbar => ?_⟩
  exact Text.sep_notMem_of_mem_pieces hsegment (mem_of_mem_tokens ht hbar)

theorem wellFormed_of_mem_invocations {line : Text} {i : Invocation}
    (h : .ok i ∈ invocations line) : i.WellFormed := by
  obtain ⟨segment, hsegment, hentry⟩ := List.mem_filterMap.mp h
  obtain ⟨ts, htokens, hred⟩ := (entry_eq_ok_iff segment i).mp hentry
  have hwords : ∀ t ∈ i.name :: ts, t.IsWord := by
    rw [← htokens]
    exact fun t => isWord_of_mem_tokens hsegment
  have hname : i.name.IsWord := hwords i.name (by simp)
  have hstart : ∀ c ∈ i.name.head?, Text.isBlank c = false := isBlank_first_token htokens
  obtain ⟨name, args, redirect⟩ := i
  cases hred with
  | none hover happend =>
    refine ⟨hname, fun a ha => hwords a (by simp [ha]), by simp, hstart, hover, happend, ?_⟩
    intro t ht
    exact isBlank_last_token (by rw [htokens]; exact ht)
  | overwrite hover =>
    refine ⟨hname, fun a ha => hwords a (by simp [ha]), ?_, hstart, hover⟩
    intro r hr
    cases hr
    exact hwords _ (by simp)
  | append hover happend =>
    refine ⟨hname, fun a ha => hwords a (by simp [ha]), ?_, hstart, ?_, happend, ?_⟩
    · intro r hr
      cases hr
      exact hwords _ (by simp)
    · exact fun ha => hover (List.mem_append_left _ ha)
    · rintro rfl
      exact hover (by simp [WriteMode.operator])

/-! ## Reading what is written -/

theorem isWord_of_mem_words {i : Invocation} (h : i.WellFormed) : ∀ w ∈ i.words, w.IsWord := by
  intro w hw
  obtain ⟨name, args, redirect⟩ := i
  cases redirect with
  | none =>
    rcases List.mem_cons.mp hw with rfl | hw
    · exact h.name
    · exact h.args w hw
  | some r =>
    have htarget : r.target.IsWord := h.target r rfl
    simp only [words, List.mem_append, List.mem_cons, List.not_mem_nil, or_false] at hw
    rcases hw with rfl | hw | rfl | rfl | rfl
    · exact h.name
    · exact h.args w hw
    · cases r.mode <;> decide
    · exact htarget
    · decide

/-- Neither trimming nor cutting at spaces changes the words. -/
theorem tokens_render {i : Invocation} (h : i.WellFormed) : tokens i.render = i.words := by
  refine tokens_joined (fun w hw => ?_) ?_ ?_
  · obtain ⟨hne, hspace, _⟩ := isWord_of_mem_words h w hw
    exact ⟨hne, hspace⟩
  · have hhead : i.words.head? = some i.name := by
      unfold words
      split <;> rfl
    simpa [hhead] using h.start
  · obtain ⟨name, args, redirect⟩ := i
    cases redirect with
    | none => exact h.operators.2.2
    | some r =>
      have hlast :
          (name :: (args ++ [r.mode.operator, r.target, ['x']])).getLast? = some ['x'] := by
        rw [← List.cons_append, List.getLast?_append]
        rfl
      have hx : Text.isBlank 'x' = false := by decide
      simp [words, hlast, hx]

/-- The operators are found where they were written. -/
theorem redirects_words {i : Invocation} (h : i.WellFormed) :
    ∃ ts, i.words = i.name :: ts ∧ Redirects ts i.args i.redirect := by
  have hfit : i.OperatorsFit := h.operators
  obtain ⟨name, args, redirect⟩ := i
  match redirect, hfit with
  | none, ⟨hover, happend, _⟩ => exact ⟨args, rfl, .none hover happend⟩
  | some ⟨.overwrite, target⟩, hover => exact ⟨_, rfl, .overwrite hover⟩
  | some ⟨.append, target⟩, ⟨hover, happend, htarget⟩ =>
    refine ⟨_, rfl, .append ?_ happend⟩
    simp only [WriteMode.operator, List.mem_append, List.mem_cons, List.not_mem_nil, or_false]
    rintro (hmem | hmem | hmem | hmem)
    · exact hover hmem
    · cases hmem
    · exact htarget hmem.symm
    · cases hmem

theorem invocations_render {i : Invocation} (h : i.WellFormed) :
    invocations i.render = [.ok i] := by
  have hbar : '|' ∉ i.render :=
    Text.notMem_joined (by decide) fun w hw => (isWord_of_mem_words h w hw).2.2
  have hentry : entry? i.render = some (.ok i) := by
    rw [entry_eq_ok_iff, tokens_render h]
    exact redirects_words h
  rw [invocations, segments, Text.pieces_of_notMem hbar]
  simp [hentry]

/-! ## The image of the parser -/

/-- The invocations that lines ask for are the well-formed ones, and each of
them is all that its own line asks for. -/
theorem invocations_image :
    (∀ (line : Text) (i : Invocation), .ok i ∈ invocations line → i.WellFormed) ∧
      ∀ i : Invocation, i.WellFormed → invocations i.render = [.ok i] :=
  ⟨fun _ _ => wellFormed_of_mem_invocations, fun _ => invocations_render⟩

/-- A name that is an operator, an argument with a tab at its end and one
that is an operator, and an operator as the target; and a name with a tab
in it, read off a line with more spaces than it needs. -/
theorem invocations_image_operators :
    let i : Invocation := ⟨['>'], [['a', '\t'], ['>', '>']], some ⟨.overwrite, ['>']⟩⟩
    i.render = "> a\t >> > > x".toList ∧ i.WellFormed ∧ invocations i.render = [.ok i] ∧
      Invocation.WellFormed ⟨['l', '\t', 's'], [], some ⟨.append, ['f']⟩⟩ := by
  have h : Invocation.WellFormed ⟨['>'], [['a', '\t'], ['>', '>']], some ⟨.overwrite, ['>']⟩⟩ := by
    decide
  have hread : invocations " l\ts  >> f g |".toList =
      [.ok ⟨['l', '\t', 's'], [], some ⟨.append, ['f']⟩⟩] := by decide +kernel
  refine ⟨rfl, h, invocations_image.2 _ h, invocations_image.1 " l\ts  >> f g |".toList _ ?_⟩
  rw [hread]
  exact List.mem_singleton_self _

end Line

end FileShell

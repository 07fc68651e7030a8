/-
FileShell.Proofs.Line.Operators — how arguments and a redirection share a
row of tokens.

`Redirects tokens args redirect` says it without the search: the operator
that counts is the first `>` if there is one, else the first `>>`; what
stands in front of it are the arguments and the next token is the target.
`redirection_eq_ok_iff` is the search against this reading.
-/
import FileShell.Line.Parser

namespace FileShell

namespace Line

/-! ## The first occurrence of an operator -/

theorem cutAt_eq_none_iff (op : Text) (ts : List Text) : cutAt op ts = none ↔ op ∉ ts := by
  induction ts with
  | nil => simp [cutAt]
  | cons t rest ih =>
    by_cases h : t = op
    · simp [cutAt, h]
    · simp [cutAt, h, ih, Ne.symm h]

theorem cutAt_append {op : Text} {before : List Text} (h : op ∉ before) (after : List Text) :
    cutAt op (before ++ op :: after) = some (before, after) := by
  induction before with
  | nil => simp [cutAt]
  | cons t before ih =>
    rw [List.mem_cons, not_or] at h
    simp [cutAt, Ne.symm h.1, ih h.2]

theorem eq_append_of_cutAt {op : Text} {ts before after : List Text}
    (h : cutAt op ts = some (before, after)) : ts = before ++ op :: after ∧ op ∉ before := by
  induction ts generalizing before with
  | nil => cases h
  | cons t rest ih =>
    unfold cutAt at h
    split at h
    · next heq =>
      cases h
      simp [heq]
    · next hne =>
      obtain ⟨parts, hparts, heq⟩ := Option.map_eq_some_iff.mp h
      cases heq
      obtain ⟨hrest, hmem⟩ := ih hparts
      exact ⟨congrArg (t :: ·) hrest, by simp [Ne.symm hne, hmem]⟩

/-! ## The redirection -/

/-- The arguments and the redirection that a row of tokens stands for. -/
inductive Redirects : List Text → List Text → Option Redirect → Prop where
  /-- No operator among them. -/
  | none {args : List Text} (hover : WriteMode.overwrite.operator ∉ args)
      (happend : WriteMode.append.operator ∉ args) : Redirects args args none
  /-- The first `>`, whatever else there is. -/
  | overwrite {args : List Text} {target : Text} {rest : List Text}
      (hover : WriteMode.overwrite.operator ∉ args) :
      Redirects (args ++ WriteMode.overwrite.operator :: target :: rest) args
        (some ⟨.overwrite, target⟩)
  /-- The first `>>`, where there is no `>`. -/
  | append {args : List Text} {target : Text} {rest : List Text}
      (hover : WriteMode.overwrite.operator ∉
        args ++ WriteMode.append.operator :: target :: rest)
      (happend : WriteMode.append.operator ∉ args) :
      Redirects (args ++ WriteMode.append.operator :: target :: rest) args
        (some ⟨.append, target⟩)

theorem redirection_eq_ok_iff (ts args : List Text) (redirect : Option Redirect) :
    redirection ts = .ok (args, redirect) ↔ Redirects ts args redirect := by
  constructor
  · intro h
    unfold redirection at h
    cases hover : cutAt WriteMode.overwrite.operator ts with
    | some parts =>
      obtain ⟨before, after⟩ := parts
      obtain ⟨rfl, hbefore⟩ := eq_append_of_cutAt hover
      rw [hover] at h
      cases after with
      | nil => cases h
      | cons target rest =>
        cases h
        exact .overwrite hbefore
    | none =>
      have hno := (cutAt_eq_none_iff _ _).mp hover
      rw [hover] at h
      cases happend : cutAt WriteMode.append.operator ts with
      | some parts =>
        obtain ⟨before, after⟩ := parts
        obtain ⟨rfl, hbefore⟩ := eq_append_of_cutAt happend
        rw [happend] at h
        cases after with
        | nil => cases h
        | cons target rest =>
          cases h
          exact .append hno hbefore
      | none =>
        rw [happend] at h
        cases h
        exact .none hno ((cutAt_eq_none_iff _ _).mp happend)
  · intro h
    cases h with
    | none hover happend =>
      rw [redirection, (cutAt_eq_none_iff _ _).mpr hover, (cutAt_eq_none_iff _ _).mpr happend]
    | overwrite hover =>
      rw [redirection, cutAt_append hover]
    | append hover happend =>
      rw [redirection, (cutAt_eq_none_iff _ _).mpr hover, cutAt_append happend]

end Line

end FileShell

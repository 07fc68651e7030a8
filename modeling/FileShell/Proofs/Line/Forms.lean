/-
FileShell.Proofs.Line.Forms — the five forms of a row of tokens.

A row of tokens behind a name has one of five forms (`Form`, where two
constructors stand for one form of either mode): a `>` with a target, a
`>` at the very end, the same two for `>>` where there is no `>`, or no
operator at all. `Form.Reads` says each of them as an equation between
lists with what is absent from its parts; nothing is searched.

Every row has exactly one form, cut in exactly one way, and what the
parser makes of the row is what the form says (`redirection_by_form`).
The search for the first operator (`Form.of`) is the link between the
two: a form reads a row just where the search finds it (`reads_iff`).
-/
import FileShell.Proofs.Line.Operators

namespace FileShell

namespace Line

/-- Nothing among the tokens wins over the operator of a mode. -/
def Uncontested (ts : List Text) : WriteMode → Prop
  | .overwrite => True
  | .append => WriteMode.overwrite.operator ∉ ts

/-- What a row of tokens looks like to the redirection. -/
inductive Form where
  /-- An operator with a target behind it. -/
  | diverted (mode : WriteMode) (args : List Text) (target : Text) (rest : List Text)
  /-- An operator at the very end. -/
  | lacking (mode : WriteMode) (args : List Text)
  /-- No operator. -/
  | plain (args : List Text)
  deriving DecidableEq, Repr

namespace Form

/-- A row of tokens has a form. -/
def Reads (ts : List Text) : Form → Prop
  | diverted mode args target rest =>
    ts = args ++ [mode.operator, target] ++ rest ∧ mode.operator ∉ args ∧ Uncontested ts mode
  | lacking mode args =>
    ts = args ++ [mode.operator] ∧ mode.operator ∉ args ∧ Uncontested ts mode
  | plain args => ts = args ∧ ∀ mode : WriteMode, mode.operator ∉ ts

/-- What a form stands for. -/
def answer : Form → Except Failure (List Text × Option Redirect)
  | diverted mode args target _ => .ok (args, some ⟨mode, target⟩)
  | lacking mode _ => .error (.missingRedirectTarget mode.operator)
  | plain args => .ok (args, none)

/-! ## The form that the search finds -/

/-- The form of what stands before and after an operator. -/
def ofParts (mode : WriteMode) : List Text × List Text → Form
  | (args, []) => lacking mode args
  | (args, target :: rest) => diverted mode args target rest

/-- The form that the parser goes by. -/
def of (ts : List Text) : Form :=
  match cutAt WriteMode.overwrite.operator ts with
  | some parts => ofParts .overwrite parts
  | none =>
    match cutAt WriteMode.append.operator ts with
    | some parts => ofParts .append parts
    | none => plain ts

variable {ts : List Text} {form : Form} {mode : WriteMode}

/-- The forms of a mode are cut at the first of its operators. -/
theorem reads_ofParts_iff {parts : List Text × List Text} :
    (ofParts mode parts).Reads ts ↔ cutAt mode.operator ts = some parts ∧ Uncontested ts mode := by
  obtain ⟨args, after⟩ := parts
  have hcut : cutAt mode.operator ts = some (args, after) ↔
      ts = args ++ mode.operator :: after ∧ mode.operator ∉ args := by
    constructor
    · exact eq_append_of_cutAt
    · rintro ⟨rfl, hargs⟩
      exact cutAt_append hargs after
  rw [hcut, and_assoc]
  cases after <;> simp [ofParts, Reads]

/-- Where a mode's operator is uncontested, the search stops at it. -/
theorem of_eq_ofParts {parts : List Text × List Text} (hcut : cutAt mode.operator ts = some parts)
    (hmode : Uncontested ts mode) : of ts = ofParts mode parts := by
  cases mode with
  | overwrite => rw [of, hcut]
  | append => rw [of, (cutAt_eq_none_iff _ _).mpr hmode, hcut]

/-- A form reads a row just where the search finds it. -/
theorem reads_iff : form.Reads ts ↔ of ts = form := by
  constructor
  · intro h
    cases form with
    | plain args =>
      obtain ⟨rfl, hnone⟩ := h
      rw [of, (cutAt_eq_none_iff _ _).mpr (hnone .overwrite),
        (cutAt_eq_none_iff _ _).mpr (hnone .append)]
    | lacking mode args =>
      obtain ⟨hcut, hmode⟩ := reads_ofParts_iff.mp (show (ofParts mode (args, [])).Reads ts from h)
      exact of_eq_ofParts hcut hmode
    | diverted mode args target rest =>
      obtain ⟨hcut, hmode⟩ :=
        reads_ofParts_iff.mp (show (ofParts mode (args, target :: rest)).Reads ts from h)
      exact of_eq_ofParts hcut hmode
  · rintro rfl
    unfold of
    split
    · next parts hover => exact reads_ofParts_iff.mpr ⟨hover, trivial⟩
    · next hover =>
      have hno : WriteMode.overwrite.operator ∉ ts := (cutAt_eq_none_iff _ _).mp hover
      split
      · next parts happend => exact reads_ofParts_iff.mpr ⟨happend, hno⟩
      · next happend =>
        refine ⟨rfl, fun mode => ?_⟩
        cases mode with
        | overwrite => exact hno
        | append => exact (cutAt_eq_none_iff _ _).mp happend

end Form

/-- The parser answers what the form that it finds stands for. -/
theorem redirection_eq_answer (ts : List Text) : redirection ts = (Form.of ts).answer := by
  unfold redirection Form.of
  cases hover : cutAt WriteMode.overwrite.operator ts with
  | some parts =>
    obtain ⟨args, after⟩ := parts
    cases after <;> rfl
  | none =>
    cases happend : cutAt WriteMode.append.operator ts with
    | some parts =>
      obtain ⟨args, after⟩ := parts
      cases after <;> rfl
    | none => rfl

/-- A segment is its name and what its other tokens stand for. -/
theorem invocation?_of_tokens {segment name : Text} {ts : List Text}
    (h : tokens segment = name :: ts) :
    invocation? segment = (redirection ts).map fun r => some ⟨name, r.1, r.2⟩ := by
  simp only [invocation?, h]
  cases redirection ts <;> rfl

/-- Every row of tokens has exactly one form, cut in exactly one way, and
the parser answers what that form stands for, also where the row stands
behind the name of a segment. -/
theorem redirection_by_form (ts : List Text) :
    ∃ form : Form, form.Reads ts ∧ (∀ other : Form, other.Reads ts → other = form) ∧
      redirection ts = form.answer ∧
      ∀ segment name : Text, tokens segment = name :: ts →
        invocation? segment = form.answer.map fun r => some ⟨name, r.1, r.2⟩ := by
  refine ⟨Form.of ts, Form.reads_iff.mpr rfl, fun other h => (Form.reads_iff.mp h).symm,
    redirection_eq_answer ts, fun segment name h => ?_⟩
  rw [invocation?_of_tokens h, redirection_eq_answer]

/-- A `>>` in front of a `>` is an argument, and a `>>` behind it a target. -/
theorem redirection_by_form_crossed :
    invocation? "ls >> a > >> > b".toList =
      .ok (some ⟨"ls".toList, [">>".toList, "a".toList], some ⟨.overwrite, ">>".toList⟩⟩) := by
  obtain ⟨form, _, honly, _, hsegment⟩ :=
    redirection_by_form [">>".toList, "a".toList, ">".toList, ">>".toList, ">".toList, "b".toList]
  obtain rfl := honly (.diverted .overwrite [">>".toList, "a".toList] ">>".toList
    [">".toList, "b".toList]) ⟨rfl, by decide, trivial⟩
  exact hsegment "ls >> a > >> > b".toList "ls".toList (by decide)

end Line

end FileShell

/-
FileShell.Proofs.CommandLine.Writing — options as they are written on the
command line, and read back.

A command line without mistakes is a row of occurrences (`Occurrence`): an
option with a value, or the wish for details, each in one of its
spellings. `Says` is what such a row says, without the reader: every
option that is set occurs once, with its value, and no other occurs; the
wish for details occurs if and only if there is one.

An occurrence is read in one step, whatever its value looks like
(`parseFrom_words`), so a row is read by a fold over its occurrences
(`parseFrom_written`), and the fold says which rows go through
(`foldlM_take_eq_ok_iff`). The order of a row and its spellings do not
enter into that (`Says.perm`), and every choice of options is said by a row
that writes each of them once (`says_occurrences`). An option that occurs again is refused at that
place, no matter how far behind the first one it is (`parse_again`).
-/
import Mathlib.Data.List.Basic
import FileShell.Options

namespace FileShell

namespace Options

/-! ## Rows of options -/

/-- Which of the two spellings of an option is used. -/
inductive Spelling where
  | short | long
  deriving DecidableEq, Repr

/-- An option that takes a value, as it is spelled; `--history` has no short
spelling. -/
def Slot.spelled : Slot → Spelling → Text
  | .directory, .short => "-C".toList
  | .directory, .long => "--directory".toList
  | .command, .short => "-c".toList
  | .command, .long => "--command".toList
  | .history, _ => "--history".toList

/-- The wish for details, as it is spelled. -/
def verboseSpelled : Spelling → Text
  | .short => "-v".toList
  | .long => "--verbose".toList

/-- One option on the command line. -/
inductive Occurrence where
  /-- An option with its value, which may be any text. -/
  | setting (slot : Slot) (spelling : Spelling) (value : Text)
  /-- The wish for details. -/
  | verbose (spelling : Spelling)
  deriving DecidableEq, Repr

/-- The arguments that an occurrence is written as. -/
def Occurrence.words : Occurrence → List Text
  | .setting slot spelling value => [slot.spelled spelling, value]
  | .verbose spelling => [verboseSpelled spelling]

/-- The arguments that a row of occurrences is written as. -/
def written (row : List Occurrence) : List Text := row.flatMap Occurrence.words

/-- The spelling and the value of an occurrence of an option. -/
def Occurrence.setting? (slot : Slot) : Occurrence → Option (Spelling × Text)
  | .setting s spelling value => if s = slot then some (spelling, value) else none
  | .verbose _ => none

/-- The occurrences of an option in a row, in order. -/
def settings (slot : Slot) (row : List Occurrence) : List (Spelling × Text) :=
  row.filterMap (Occurrence.setting? slot)

/-- What a row of occurrences says: each option that is set once, with its
value, and no other; and the wish for details if there is one. -/
structure Says (row : List Occurrence) (o : Options) : Prop where
  values : ∀ slot, (settings slot row).map Prod.snd = (o.get slot).toList
  verbose : o.verbose = true ↔ ∃ spelling, .verbose spelling ∈ row

section

variable {row : List Occurrence} {slot s : Slot} {spelling : Spelling} {value : Text} {o o' : Options}

@[simp] theorem settings_cons_self :
    settings slot (.setting slot spelling value :: row) = (spelling, value) :: settings slot row := by
  simp [settings, Occurrence.setting?]

theorem settings_cons_of_ne (h : slot ≠ s) :
    settings s (.setting slot spelling value :: row) = settings s row := by
  simp [settings, Occurrence.setting?, h]

@[simp] theorem settings_cons_verbose : settings s (.verbose spelling :: row) = settings s row :=
  List.filterMap_cons_none rfl

theorem settings_append (front back : List Occurrence) :
    settings s (front ++ back) = settings s front ++ settings s back := List.filterMap_append

/-! ## Options, slot by slot -/

@[simp] theorem get_set_self : (o.set value slot).get slot = some value := by
  cases slot <;> rfl

theorem get_set_of_ne (h : slot ≠ s) : (o.set value slot).get s = o.get s := by
  cases slot <;> cases s <;> first | rfl | exact absurd rfl h

@[simp] theorem verbose_set : (o.set value slot).verbose = o.verbose := by
  cases slot <;> rfl

@[simp] theorem get_verbose (b : Bool) : ({ o with verbose := b } : Options).get s = o.get s := by
  cases s <;> rfl

theorem eq_of_get (hget : ∀ s, o.get s = o'.get s) (hverbose : o.verbose = o'.verbose) : o = o' := by
  obtain ⟨directory, command, history, verbose⟩ := o
  obtain ⟨directory', command', history', verbose'⟩ := o'
  obtain rfl : directory = directory' := hget .directory
  obtain rfl : command = command' := hget .command
  obtain rfl : history = history' := hget .history
  obtain rfl : verbose = verbose' := hverbose
  rfl

/-! ## Reading a row -/

/-- The options after one more occurrence, unless it sets an option again. -/
def take (o : Options) : Occurrence → Except Refusal Options
  | .setting slot spelling value =>
    if (o.get slot).isSome then .error (.duplicate (slot.spelled spelling) value)
    else .ok (o.set value slot)
  | .verbose _ => .ok { o with verbose := true }

/-- A spelling of an option is read as that option and as nothing else. -/
theorem slot?_spelled (slot : Slot) (spelling : Spelling) :
    slot? (slot.spelled spelling) = some slot ∧ isHelp (slot.spelled spelling) = false ∧
      slot.spelled spelling ≠ "--".toList ∧ (slot.spelled spelling).head? = some '-' ∧
      isVerbose (slot.spelled spelling) = false := by
  cases slot <;> cases spelling <;> decide

theorem isVerbose_spelled (spelling : Spelling) :
    isVerbose (verboseSpelled spelling) = true ∧ isHelp (verboseSpelled spelling) = false ∧
      verboseSpelled spelling ≠ "--".toList ∧ (verboseSpelled spelling).head? = some '-' := by
  cases spelling <;> decide

/-- One occurrence is read in one step. -/
theorem parseFrom_words (o : Options) (x : Occurrence) (rest : List Text) :
    parseFrom o false (x.words ++ rest) = take o x >>= fun o => parseFrom o false rest := by
  cases x with
  | setting slot spelling value =>
    obtain ⟨hslot, hhelp, hend, hdash, hverbose⟩ := slot?_spelled slot spelling
    simp only [Occurrence.words, List.cons_append, List.nil_append, take]
    rw [parseFrom]
    simp only [hslot, hhelp, hend, hdash, hverbose, Bool.false_eq_true, if_false, ne_eq,
      not_true_eq_false]
    split <;> rfl
  | verbose spelling =>
    obtain ⟨hverbose, hhelp, hend, hdash⟩ := isVerbose_spelled spelling
    simp only [Occurrence.words, List.cons_append, List.nil_append, take]
    rw [parseFrom.eq_def]
    simp only [hverbose, hhelp, hend, hdash, Bool.false_eq_true, if_false, if_true, ne_eq,
      not_true_eq_false]
    rfl

/-- A row is read occurrence by occurrence. -/
theorem parseFrom_written (row : List Occurrence) (o : Options) :
    parseFrom o false (written row) = row.foldlM take o := by
  induction row generalizing o with
  | nil => rfl
  | cons x row ih =>
    rw [written, List.flatMap_cons, parseFrom_words, List.foldlM_cons]
    exact congrArg _ (funext ih)

/-- A row goes through if each option in it is set once and was not set
before; what was set before stays. -/
theorem foldlM_take_eq_ok_iff (row : List Occurrence) (o o' : Options) :
    row.foldlM take o = .ok o' ↔
      (∀ s, (o.get s).toList ++ (settings s row).map Prod.snd = (o'.get s).toList) ∧
        (o'.verbose = true ↔ o.verbose = true ∨ ∃ spelling, .verbose spelling ∈ row) := by
  induction row generalizing o with
  | nil =>
    constructor
    · rintro ⟨⟩
      simp [settings]
    · rintro ⟨hget, hverbose⟩
      refine congrArg Except.ok (eq_of_get (fun s => ?_) ?_)
      · simpa [settings] using congrArg List.head? (hget s)
      · exact Bool.eq_iff_iff.mpr (by simpa using hverbose.symm)
  | cons x row ih =>
    rw [List.foldlM_cons]
    cases x with
    | setting slot spelling value =>
      by_cases hset : (o.get slot).isSome
      · -- Two values for one option are more than options hold.
        obtain ⟨old, hold⟩ := Option.isSome_iff_exists.mp hset
        rw [take, if_pos hset]
        refine iff_of_false nofun fun h => ?_
        have hslot := h.1 slot
        rw [hold, settings_cons_self] at hslot
        cases hnew : o'.get slot <;> simp [hnew] at hslot
      · have hnone : o.get slot = none := by simpa using hset
        rw [take, if_neg hset]
        refine (ih _).trans (and_congr (forall_congr' fun s => ?_) ?_)
        · by_cases hs : slot = s
          · subst hs
            simp [hnone]
          · rw [get_set_of_ne hs, settings_cons_of_ne hs]
        · simp
    | verbose spelling =>
      rw [take]
      refine (ih _).trans (and_congr (forall_congr' fun s => ?_) ?_)
      · simp
      · simp

/-- Options are read off a row just where the row says them. -/
theorem parse_eq_ok_iff {row : List Occurrence} : parse (written row) = .ok o ↔ Says row o := by
  have hempty (s : Slot) : get {} s = none := by cases s <;> rfl
  rw [parse, parseFrom_written, foldlM_take_eq_ok_iff]
  simp only [hempty, Option.toList_none, List.nil_append, Bool.false_eq_true, false_or]
  exact ⟨fun h => ⟨h.1, h.2⟩, fun h => ⟨h.values, h.verbose⟩⟩

/-- An option that is set already is refused where it occurs again. -/
theorem parse_again {front : List Occurrence} (hfront : Says front o)
    (hset : (o.get slot).isSome = true) (spelling : Spelling) (value : Text)
    (back : List Occurrence) :
    parse (written (front ++ .setting slot spelling value :: back)) =
      .error (.duplicate (slot.spelled spelling) value) := by
  have hread : front.foldlM take {} = .ok o := by
    rw [← parseFrom_written]
    exact parse_eq_ok_iff.mpr hfront
  rw [parse, parseFrom_written, List.foldlM_append, hread]
  show (take o _ >>= fun o => back.foldlM take o) = _
  rw [take, if_pos hset]
  rfl

/-! ## Options that occur at most once -/

theorem Says.length_settings (h : Says row o) (s : Slot) : (settings s row).length ≤ 1 := by
  have hlength := congrArg List.length (h.values s)
  rw [List.length_map] at hlength
  rw [hlength]
  cases o.get s <;> simp

theorem Says.isSome_get (h : Says row o) (hoccurs : settings slot row ≠ []) :
    (o.get slot).isSome = true := by
  rw [Option.isSome_iff_ne_none]
  intro hnone
  have hvalues := h.values slot
  rw [hnone, Option.toList_none, List.map_eq_nil_iff] at hvalues
  exact hoccurs hvalues

/-- A row in which an option occurs once has it between two parts without it. -/
theorem exists_of_settings_eq_singleton {x : Spelling × Text} (h : settings slot row = [x]) :
    ∃ before after, row = before ++ .setting slot x.1 x.2 :: after ∧
      settings slot before = [] ∧ settings slot after = [] := by
  obtain ⟨before, y, after, rfl, hbefore, hy, hafter⟩ := List.filterMap_eq_cons_iff.mp h
  obtain rfl : y = .setting slot x.1 x.2 := by
    cases y with
    | setting s spelling value =>
      simp only [Occurrence.setting?, Option.ite_none_right_eq_some, Option.some.injEq] at hy
      obtain ⟨rfl, rfl⟩ := hy
      rfl
    | verbose spelling => cases hy
  exact ⟨before, after, rfl, List.filterMap_eq_nil_iff.mpr hbefore, hafter⟩

/-- A row in which every option occurs at most once says something. -/
theorem exists_says (h : ∀ s, (settings s row).length ≤ 1) : ∃ o, Says row o := by
  let value? (s : Slot) : Option Text := ((settings s row).map Prod.snd).head?
  let o : Options :=
    ⟨value? .directory, value? .command, value? .history, row.any fun x => x matches .verbose _⟩
  refine ⟨o, fun s => ?_, ?_⟩
  · have hget : o.get s = value? s := by cases s <;> rfl
    rw [hget]
    match hrow : settings s row, h s with
    | [], _ => simp [value?, hrow]
    | [x], _ => simp [value?, hrow]
  · rw [List.any_eq_true]
    constructor
    · rintro ⟨x, hx, hverbose⟩
      cases x with
      | setting slot spelling value => cases hverbose
      | verbose spelling => exact ⟨spelling, hx⟩
    · rintro ⟨spelling, hx⟩
      exact ⟨_, hx, rfl⟩

/-- An option that is set is refused if it is given again anywhere in the
row: the later of its two occurrences is the one refused. -/
theorem parse_with_again {front back : List Occurrence} (h : Says (front ++ back) o)
    (hset : (o.get slot).isSome = true) (spelling : Spelling) (value : Text) :
    ∃ last ∈ (settings slot (front ++ .setting slot spelling value :: back)).getLast?,
      parse (written (front ++ .setting slot spelling value :: back)) =
        .error (.duplicate (slot.spelled last.1) last.2) := by
  obtain ⟨x, hx⟩ : ∃ x, settings slot (front ++ back) = [x] := by
    obtain ⟨v, hv⟩ := Option.isSome_iff_exists.mp hset
    have hvalues := h.values slot
    rw [hv, Option.toList_some, List.map_eq_singleton_iff] at hvalues
    exact hvalues.imp fun _ hx => hx.1
  have honce (s : Slot) : (settings s front).length + (settings s back).length ≤ 1 := by
    rw [← List.length_append, ← settings_append]
    exact h.length_settings s
  rw [settings_append] at hx
  rcases List.append_eq_singleton_iff.mp hx with ⟨hfront, hback⟩ | ⟨hfront, hback⟩
  · -- The one that was there comes later, behind a row that says something.
    obtain ⟨between, after, rfl, hbetween, hafter⟩ := exists_of_settings_eq_singleton hback
    obtain ⟨o₁, ho₁⟩ : ∃ o₁, Says (front ++ .setting slot spelling value :: between) o₁ := by
      refine exists_says fun s => ?_
      rw [settings_append, List.length_append]
      by_cases hs : slot = s
      · subst hs
        simp [hfront, hbetween]
      · have hle := honce s
        rw [settings_append, List.length_append] at hle
        rw [settings_cons_of_ne hs]
        omega
    have hset₁ : (o₁.get slot).isSome = true := by
      refine ho₁.isSome_get ?_
      simp [settings_append]
    refine ⟨x, ?_, ?_⟩
    · simp [settings_append, hbetween, hafter]
    · rw [← List.cons_append, ← List.append_assoc]
      exact parse_again ho₁ hset₁ x.1 x.2 after
  · -- The one that was there comes first.
    obtain ⟨o₁, ho₁⟩ : ∃ o₁, Says front o₁ :=
      exists_says fun s => Nat.le_trans (Nat.le_add_right _ _) (honce s)
    have hset₁ : (o₁.get slot).isSome = true := ho₁.isSome_get (by simp [hfront])
    refine ⟨(spelling, value), ?_, parse_again ho₁ hset₁ spelling value back⟩
    simp [settings_append, hfront, hback]

/-! ## Options as they are written -/

/-- The order of a row does not matter. -/
theorem Says.perm {row' : List Occurrence} (h : Says row o) (hperm : row.Perm row') :
    Says row' o := by
  refine ⟨fun s => ?_, ?_⟩
  · have hsettings : (settings s row).Perm (settings s row') := hperm.filterMap _
    have hvalues := hsettings.map Prod.snd
    rw [h.values s] at hvalues
    cases hget : o.get s with
    | none =>
      rw [hget] at hvalues
      exact hvalues.nil_eq.symm
    | some value =>
      rw [hget] at hvalues
      exact hvalues.singleton_eq.symm
  · rw [h.verbose]
    exact exists_congr fun spelling => hperm.mem_iff

/-- An option that takes a value, written once if it is set. -/
def once (o : Options) (spelling : Spelling) (slot : Slot) : List Occurrence :=
  (o.get slot).toList.map (.setting slot spelling)

/-- The row that writes each option once and the wish for details any number
of times, in the given spellings. -/
def occurrences (o : Options) (spelling : Slot → Spelling) (details : List Spelling) :
    List Occurrence :=
  o.once (spelling .directory) .directory ++ o.once (spelling .command) .command ++
    o.once (spelling .history) .history ++ details.map .verbose

theorem settings_once_self : (settings slot (o.once spelling slot)).map Prod.snd =
    (o.get slot).toList := by
  rw [once]
  cases o.get slot with
  | none => rfl
  | some value =>
    rw [Option.toList_some, List.map_singleton, settings_cons_self]
    rfl

theorem settings_once_of_ne (h : slot ≠ s) : settings s (o.once spelling slot) = [] := by
  rw [once]
  cases o.get slot with
  | none => rfl
  | some value =>
    rw [Option.toList_some, List.map_singleton, settings_cons_of_ne h]
    rfl

/-- Whatever the options, there is a row that says them. -/
theorem says_occurrences {details : List Spelling} (hdetails : details ≠ [] ↔ o.verbose = true)
    (spelling : Slot → Spelling) : Says (o.occurrences spelling details) o := by
  have hno (slot : Slot) : settings slot (details.map .verbose) = [] := by
    rw [settings, List.filterMap_eq_nil_iff]
    intro x hx
    obtain ⟨_, -, rfl⟩ := List.mem_map.mp hx
    rfl
  refine ⟨fun slot => ?_, ?_⟩
  · simp only [occurrences, settings_append, hno, List.map_append]
    cases slot <;> simp [settings_once_self, settings_once_of_ne]
  · rw [← hdetails]
    simp [occurrences, once, List.eq_nil_iff_forall_not_mem]

/-- Options are read off a row just where the row says them. So any options
are read back that are written once each, in any order and spellings, with
the wish for details any number of times or not at all. And once a row says
some options, one that takes a value and is among them is refused where it
occurs for the second time, however it is spelled, whatever its value and
wherever it is put in. -/
theorem parse_written (row : List Occurrence) (o : Options) :
    (parse (written row) = .ok o ↔ Says row o) ∧
      (∀ spelling details, (details ≠ [] ↔ o.verbose = true) →
        row.Perm (o.occurrences spelling details) → parse (written row) = .ok o) ∧
      (Says row o → ∀ front back, row = front ++ back → ∀ slot, (o.get slot).isSome = true →
        ∀ spelling value,
          ∃ last ∈ (settings slot (front ++ .setting slot spelling value :: back)).getLast?,
            parse (written (front ++ .setting slot spelling value :: back)) =
              .error (.duplicate (slot.spelled last.1) last.2)) := by
  refine ⟨parse_eq_ok_iff, fun spelling details hdetails hperm => ?_, ?_⟩
  · exact parse_eq_ok_iff.mpr ((says_occurrences hdetails spelling).perm hperm.symm)
  · rintro h front back rfl slot hset spelling value
    exact parse_with_again h hset spelling value

end

/-- A value that is spelled like an option or like the wish for help is only a
value; a directory given again in front of all that is one too many. -/
theorem parse_written_values_like_options :
    parse ["-v".toList, "-c".toList, "--".toList, "--verbose".toList, "-C".toList, "help".toList] =
        .ok ⟨some "help".toList, some "--".toList, none, true⟩ ∧
      parse ["-v".toList, "--directory".toList, "-c".toList, "-c".toList, "--".toList,
          "--verbose".toList, "-C".toList, "help".toList] =
        .error (.duplicate "-C".toList "help".toList) := by
  let row : List Occurrence :=
    [.verbose .short, .setting .command .short "--".toList, .verbose .long,
      .setting .directory .short "help".toList]
  obtain ⟨hread, hwritten, hagain⟩ :=
    parse_written row ⟨some "help".toList, some "--".toList, none, true⟩
  have hrow : parse (written row) = .ok ⟨some "help".toList, some "--".toList, none, true⟩ :=
    hwritten (fun _ => .short) [.short, .long] (by decide) (by decide)
  refine ⟨hrow, ?_⟩
  obtain ⟨last, hlast, hparse⟩ :=
    hagain (hread.mp hrow) [.verbose .short] row.tail rfl .directory rfl .long "-c".toList
  obtain rfl : (.short, "help".toList) = last := Option.some.inj hlast
  exact hparse

end Options

end FileShell

/-
FileShell.Proofs.SharedLog.Contents — what is in a shared log, told from
the calls.

What a handle sees is all that was written through its relatives since the
last take through one of them (`held`). The logs keep this in step: a call
changes the content of a log by what it writes through the handles of that
log, unless it is a take through one of them (`content_answer`), and from
there by induction on the calls (`content_after`). Likewise, what a take
takes out is what the log held (`drains_append_content`), so the runs of
bytes that takes took out and what is left are all that was written
(`drained_append_content`).

In these lemmas the handles of a log are any predicate that names them
(`Shares`); the relatives of one of them do (`shares_related`).

`relatives_share_log` puts this together. Texts alone would not show that
nothing is lost: a take may cut a character in two, and then neither text
has it.
-/
import Mathlib.Data.List.DropRight
import FileShell.Proofs.SharedLog.Relatives

namespace FileShell

namespace SharedLog

/-! ## What goes through some handles -/

section

variable (near : Nat → Prop) [DecidablePred near]

/-- Whether a call is a take through one of the handles `near`. -/
def Call.empties : Call → Bool
  | .take handle => decide (near handle)
  | _ => false

/-- The bytes that a call writes through the handles `near`. -/
def Call.written : Call → Bytes
  | .write handle data => if near handle then data else []
  | _ => []

/-- The bytes that calls write through the handles `near`, in order. -/
def written (calls : List Call) : Bytes := calls.flatMap (Call.written near)

/-- The calls after the last take through one of the handles `near`. -/
def sinceTake (calls : List Call) : List Call := calls.rtakeWhile fun c => !c.empties near

/-- The bytes that a call takes out through the handles `near`, not decoded. -/
def Call.drains (s : SharedLog) : Call → List Bytes
  | .take handle => if near handle then [(s.drain handle).1] else []
  | _ => []

/-- The runs of bytes that takes through the handles `near` take out, one after another. -/
def drained : SharedLog → List Call → List Bytes
  | _, [] => []
  | s, c :: rest => c.drains near s ++ drained (s.answer c).2 rest

/-- The texts that takes through the handles `near` are answered with. -/
def takenTexts : List Call → List Answer → List Text
  | .take handle :: calls, .text t :: answers =>
    if near handle then t :: takenTexts calls answers else takenTexts calls answers
  | _ :: calls, _ :: answers => takenTexts calls answers
  | _, _ => []

end

/-! ## One log -/

/-- What is in a log. -/
def content (s : SharedLog) (i : Nat) : Bytes := s.logs[i]?.getD []

/-- The handles `near` are those of the log `i`. -/
def Shares (near : Nat → Prop) (s : SharedLog) (i : Nat) : Prop :=
  ∀ handle < s.handles.length, near handle ↔ s.logOf handle = some i

section

variable {near : Nat → Prop} {s : SharedLog} {i handle : Nat} {c : Call}
  {calls : List Call}

theorem lt_of_logOf (hi : s.logOf handle = some i) : handle < s.handles.length :=
  (List.getElem?_eq_some_iff.mp hi).1

theorem bytes_of_logOf (hi : s.logOf handle = some i) : s.bytes handle = s.content i := by
  rw [bytes, hi]
  rfl

theorem Shares.of_after (calls : List Call) (h : Shares near (s.after calls) i) :
    Shares near s i := by
  intro handle hhandle
  rw [← logOf_after_of_lt hhandle calls]
  refine h handle ?_
  rw [length_handles_after]
  exact Nat.lt_add_right _ hhandle

/-- The last of some calls goes through a handle that is there, and the
handles of a log were those of the log before it. -/
theorem Shares.of_concat (hcalls : Possible 0 (calls ++ [c]))
    (h : Shares near (empty.after (calls ++ [c])) i) :
    Possible 0 calls ∧ (∀ handle ∈ c.handle?, handle < (empty.after calls).handles.length) ∧
      Shares near (empty.after calls) i := by
  obtain ⟨hpast, hc⟩ := (possible_concat calls c).mp hcalls
  rw [after_append] at h
  rw [length_handles]
  exact ⟨hpast, hc, h.of_after [c]⟩

/-- A new log is empty, as one that is not there yet. -/
theorem content_create (s : SharedLog) (i : Nat) : s.create.2.content i = s.content i := by
  rw [content, create, List.getElem?_append]
  split
  · rfl
  · next hge =>
    rw [content, List.getElem?_eq_none (Nat.le_of_not_lt hge)]
    cases i - s.logs.length <;> rfl

/-- Changing the log of a handle changes that one alone. -/
theorem content_modify (hs : s.IsSound) (hhandle : handle < s.handles.length)
    (hnear : near handle ↔ s.logOf handle = some i) [Decidable (near handle)]
    (f : Bytes → Bytes) :
    (s.modify handle f).content i = if near handle then f (s.content i) else s.content i := by
  obtain ⟨j, hj⟩ := exists_logOf hhandle
  have hlt := hs.lt_length hj
  rw [modify_of_logOf hj, content, content]
  by_cases hij : j = i
  · subst hij
    rw [List.getElem?_modify_eq, if_pos (hnear.mpr hj), List.getElem?_eq_getElem hlt]
    rfl
  · have hfar : ¬ near handle := fun h => hij (Option.some.inj (hj.symm.trans (hnear.mp h)))
    rw [List.getElem?_modify_ne f _ hij, if_neg hfar]

variable [DecidablePred near]

/-- A call changes the content of a log by what it writes through the
handles of that log, unless it is a take through one of them. -/
theorem content_answer (hs : s.IsSound) (hc : ∀ handle ∈ c.handle?, handle < s.handles.length)
    (hnear : Shares near s i) :
    (s.answer c).2.content i =
      if c.empties near then [] else s.content i ++ c.written near := by
  cases c with
  | create =>
    simp only [Call.empties, Call.written, List.append_nil]
    exact content_create s i
  | clone handle =>
    obtain ⟨j, hj⟩ := exists_logOf (hc handle rfl)
    simp [answer, clone, hj, content, Call.empties, Call.written]
  | write handle data =>
    have hlt := hc handle rfl
    have hcontent := content_modify hs hlt (hnear handle hlt) (· ++ data)
    simp only [answer, write, Prod.map_snd, id, hcontent, Call.empties, Call.written]
    split <;> simp
  | take handle =>
    have hlt := hc handle rfl
    have hcontent := content_modify hs hlt (hnear handle hlt) (fun _ => [])
    simp only [answer, take, drain, Prod.map_snd, id, hcontent, Call.empties, Call.written]
    simp
  | flush _ | contents _ => simp [answer, flush, Call.empties, Call.written]

theorem sinceTake_concat (near : Nat → Prop) [DecidablePred near] (calls : List Call) (c : Call) :
    sinceTake near (calls ++ [c]) = if c.empties near then [] else sinceTake near calls ++ [c] := by
  rw [sinceTake, List.rtakeWhile_concat]
  cases c.empties near <;> rfl

theorem sinceTake_append {more : List Call} (hmore : ∀ c ∈ more, c.empties near = false) :
    sinceTake near (calls ++ more) = sinceTake near calls ++ more := by
  induction more using List.reverseRecOn with
  | nil => simp
  | append_singleton more c ih =>
    rw [← List.append_assoc, sinceTake_concat, hmore c (List.mem_concat_self), if_neg nofun,
      ih fun d hd => hmore d (List.mem_append_left _ hd), List.append_assoc]

/-- Calls through other handles neither write nor take through `near`. -/
theorem far_of_handle? (hfar : ∀ c ∈ calls, ∀ handle ∈ c.handle?, ¬ near handle) :
    (∀ c ∈ calls, c.empties near = false) ∧ written near calls = [] := by
  refine ⟨fun c hc => ?_, List.flatMap_eq_nil_iff.mpr fun c hc => ?_⟩
  · cases c with
    | take handle => exact decide_eq_false (hfar _ hc handle rfl)
    | _ => rfl
  · cases c with
    | write handle data => exact if_neg (hfar _ hc handle rfl)
    | _ => rfl

theorem written_append (near : Nat → Prop) [DecidablePred near] (front rest : List Call) :
    written near (front ++ rest) = written near front ++ written near rest :=
  List.flatMap_append

theorem written_concat (near : Nat → Prop) [DecidablePred near] (calls : List Call) (c : Call) :
    written near (calls ++ [c]) = written near calls ++ c.written near := by
  rw [written_append, written, written, List.flatMap_singleton]

theorem drained_concat (near : Nat → Prop) [DecidablePred near] (s : SharedLog)
    (calls : List Call) (c : Call) :
    drained near s (calls ++ [c]) = drained near s calls ++ c.drains near (s.after calls) := by
  induction calls generalizing s with
  | nil => simp [drained, after]
  | cons d calls ih => rw [List.cons_append, drained, drained, ih, List.append_assoc]; rfl

/-- A log holds what was written through its handles since it was last taken. -/
theorem content_after (hcalls : Possible 0 calls) (hnear : Shares near (empty.after calls) i) :
    (empty.after calls).content i = written near (sinceTake near calls) := by
  induction calls using List.reverseRecOn with
  | nil => rfl
  | append_singleton calls c ih =>
    obtain ⟨hpast, hc, hnear⟩ := hnear.of_concat hcalls
    rw [after_concat, content_answer (isSound_after isSound_empty calls) hc hnear, ih hpast hnear,
      sinceTake_concat]
    split
    · rfl
    · rw [written_concat]

/-- What a call takes out of a log is what the log held before it and does
not hold after it. -/
theorem drains_append_content (hs : s.IsSound)
    (hc : ∀ handle ∈ c.handle?, handle < s.handles.length) (hnear : Shares near s i) :
    (c.drains near s).flatten ++ (s.answer c).2.content i = s.content i ++ c.written near := by
  rw [content_answer hs hc hnear]
  cases c with
  | take handle =>
    by_cases h : near handle
    · have hi := (hnear handle (hc handle rfl)).mp h
      simp [Call.drains, Call.empties, Call.written, h, drain, bytes_of_logOf hi]
    · simp [Call.drains, Call.empties, Call.written, h]
  | create | clone _ | write _ _ | flush _ | contents _ =>
    simp [Call.drains, Call.empties, Call.written]

/-- Nothing is lost and nothing comes twice. -/
theorem drained_append_content (hcalls : Possible 0 calls)
    (hnear : Shares near (empty.after calls) i) :
    (drained near empty calls).flatten ++ (empty.after calls).content i = written near calls := by
  induction calls using List.reverseRecOn with
  | nil => rfl
  | append_singleton calls c ih =>
    obtain ⟨hpast, hc, hnear⟩ := hnear.of_concat hcalls
    rw [after_concat, drained_concat, List.flatten_append, List.append_assoc,
      drains_append_content (isSound_after isSound_empty calls) hc hnear, ← List.append_assoc,
      ih hpast hnear, written_concat]

theorem takenTexts_answers (near : Nat → Prop) [DecidablePred near] (s : SharedLog)
    (calls : List Call) :
    takenTexts near calls (s.answers calls) = (drained near s calls).map Utf8.decodeLossy := by
  induction calls generalizing s with
  | nil => rfl
  | cons c calls ih =>
    rw [answers, drained, List.map_append, ← ih]
    cases c with
    | take handle =>
      by_cases h : near handle <;> simp [answer, take, takenTexts, Call.drains, h]
    | create | clone _ | write _ _ | flush _ | contents _ => rfl

end

/-! ## The logs of relatives -/

/-- Statements ask whether handles are related; nothing that runs does. -/
noncomputable instance decidableRelated (calls : List Call) (handle : Nat) :
    DecidablePred (Related calls handle) :=
  fun _ => Classical.propDecidable _

/-- What calls leave for a handle to see: all that was written through its
relatives since the last take through one of them. -/
noncomputable def held (calls : List Call) (handle : Nat) : Bytes :=
  written (Related calls handle) (sinceTake (Related calls handle) calls)

/-- The answer to a call, told from the calls before it. -/
noncomputable def answerDue (before : List Call) : Call → Answer
  | .create | .clone _ => .handle (given before)
  | .write _ data => .count data.length
  | .flush _ => .done
  | .contents handle | .take handle => .text (Utf8.decodeLossy (held before handle))

/-- The answers to calls made one after another, told from the calls alone. -/
noncomputable def answersDue (before : List Call) : List Call → List Answer
  | [] => []
  | c :: rest => answerDue before c :: answersDue (before ++ [c]) rest

section

variable {calls more : List Call} {handle i : Nat}

theorem shares_related (hcalls : Possible 0 calls) (hhandle : handle < given calls)
    (hi : (empty.after calls).logOf handle = some i) :
    Shares (Related calls handle) (empty.after calls) i := by
  intro other hother
  rw [length_handles] at hother
  rw [related_iff hcalls hhandle hother, hi]
  exact eq_comm

theorem bytes_after (hcalls : Possible 0 calls) (hhandle : handle < given calls) :
    (empty.after calls).bytes handle = held calls handle := by
  obtain ⟨i, hi⟩ := exists_logOf (length_handles calls ▸ hhandle)
  rw [bytes_of_logOf hi, content_after hcalls (shares_related hcalls hhandle hi), held]

theorem answer_after (before : List Call) (c : Call) (h : Possible 0 (before ++ [c])) :
    ((empty.after before).answer c).1 = answerDue before c := by
  obtain ⟨hbefore, hc⟩ := (possible_concat before c).mp h
  have hgiven := length_handles before
  cases c with
  | create => exact congrArg Answer.handle hgiven
  | clone handle =>
    obtain ⟨i, hi⟩ := exists_logOf (hgiven ▸ hc handle rfl)
    simp [answer, clone, hi, answerDue, hgiven]
  | write _ _ | flush _ => rfl
  | contents handle | take handle =>
    exact congrArg (Answer.text ∘ Utf8.decodeLossy) (bytes_after hbefore (hc handle rfl))

theorem answers_after (before : List Call) (h : Possible 0 (before ++ calls)) :
    (empty.after before).answers calls = answersDue before calls := by
  induction calls generalizing before with
  | nil => rfl
  | cons c calls ih =>
    rw [List.append_cons] at h
    have hc := ((possible_append 0 (before ++ [c]) calls).mp h).1
    rw [answers, answersDue, answer_after before c hc, ← after_concat, ih _ h]

/-- Without a take through a relative, what a handle sees grows by what is
written through relatives. -/
theorem bytes_after_append (hcalls : Possible 0 (calls ++ more)) (hhandle : handle < given calls)
    (hmore : ∀ c ∈ more, c.empties (Related (calls ++ more) handle) = false) :
    (empty.after (calls ++ more)).bytes handle =
      (empty.after calls).bytes handle ++ written (Related (calls ++ more) handle) more := by
  obtain ⟨i, hi⟩ := exists_logOf (length_handles calls ▸ hhandle)
  have hi' := (logOf_append_of_lt hhandle more).trans hi
  have hall : handle < given (calls ++ more) := by
    rw [given_append]
    exact Nat.lt_add_right _ hhandle
  have hshares := shares_related hcalls hall hi'
  have hpast := ((possible_append 0 calls more).mp hcalls).1
  rw [bytes_of_logOf hi', bytes_of_logOf hi, content_after hcalls hshares, sinceTake_append hmore,
    written_append]
  rw [after_append] at hshares
  rw [content_after hpast (hshares.of_after more)]

/-- A take through a relative leaves nothing. -/
theorem bytes_take (hcalls : Possible 0 calls) (hhandle : handle < given calls) {other : Nat}
    (hother : Related calls handle other) : ((empty.after calls).take other).2.bytes handle = [] := by
  have hlt : handle < (empty.after calls).handles.length := length_handles calls ▸ hhandle
  obtain ⟨i, hi⟩ := exists_logOf hlt
  have hknown : other < (empty.after calls).handles.length :=
    lt_of_logOf ((hother.logOf_eq hcalls).symm.trans hi)
  have htake := content_answer (c := .take other) (isSound_after isSound_empty calls)
    (fun _ h => Option.some.inj h ▸ hknown) (shares_related hcalls hhandle hi)
  have hkept := (logOf_answer_of_lt hlt (.take other)).trans hi
  rw [Call.empties, decide_eq_true hother, if_pos rfl] at htake
  exact (bytes_of_logOf hkept).trans htake

/-- Handles that are related share a log. Whatever the calls, each through a
handle that was given out by then: every answer is as the calls before it
tell, so that `contents` and `take` give the text of all that was written
through relatives since the last take through one. Further, for each
handle:

* a take through a relative leaves nothing to see;
* without one, what is to be seen grows by what is written through
  relatives;
* calls through handles that are no relatives leave it as it is;
* the texts that takes through relatives were answered with are those of
  the runs of bytes that they took out;
* these runs and what is still there are, one after another, just the bytes
  that were written through relatives. -/
theorem relatives_share_log (hcalls : Possible 0 calls) :
    empty.answers calls = answersDue [] calls ∧
    ∀ handle < given calls,
      (∀ other, Related calls handle other →
        ((empty.after calls).take other).2.bytes handle = []) ∧
      (∀ more, Possible 0 (calls ++ more) →
        (∀ c ∈ more, c.empties (Related (calls ++ more) handle) = false) →
          (empty.after (calls ++ more)).bytes handle =
            (empty.after calls).bytes handle ++ written (Related (calls ++ more) handle) more) ∧
      (∀ more, Possible 0 (calls ++ more) →
        (∀ c ∈ more, ∀ other ∈ c.handle?, ¬ Related (calls ++ more) handle other) →
          (empty.after (calls ++ more)).bytes handle = (empty.after calls).bytes handle) ∧
      takenTexts (Related calls handle) calls (empty.answers calls) =
        (drained (Related calls handle) empty calls).map Utf8.decodeLossy ∧
      (drained (Related calls handle) empty calls).flatten ++ (empty.after calls).bytes handle =
        written (Related calls handle) calls := by
  refine ⟨answers_after [] hcalls, fun handle hhandle =>
    ⟨fun other => bytes_take hcalls hhandle, fun more hall => bytes_after_append hall hhandle,
      fun more hall hfar => ?_, takenTexts_answers _ _ _, ?_⟩⟩
  · have hfar' := far_of_handle? hfar
    rw [bytes_after_append hall hhandle hfar'.1, hfar'.2, List.append_nil]
  · obtain ⟨i, hi⟩ := exists_logOf (length_handles calls ▸ hhandle)
    rw [bytes_of_logOf hi]
    exact drained_append_content hcalls (shares_related hcalls hhandle hi)

end

/-- A character of two bytes is written through a clone and, after a take
through the first handle, through another clone. Neither text has it, and
the bytes are all there. What goes through a handle of another log does not
matter. -/
theorem relatives_share_log_cut_character :
    let calls : List Call :=
      [.create, .clone 0, .create, .write 1 [0xC3], .write 2 [0x78], .take 0, .clone 0,
        .write 3 [0xA9, 0x21], .flush 2, .contents 1]
    let more : List Call := [.take 2, .write 2 [0x79]]
    Possible 0 (calls ++ more) ∧
      answersDue [] calls =
        [.handle 0, .handle 1, .handle 2, .count 1, .count 1, .text ['\uFFFD'], .handle 3,
          .count 2, .done, .text ['\uFFFD', '!']] ∧
      (empty.after (calls ++ more)).bytes 1 = (empty.after calls).bytes 1 ∧
      (drained (Related calls 1) empty calls).flatten ++ (empty.after calls).bytes 1 =
        [0xC3, 0xA9, 0x21] := by
  intro calls more
  have hall : Possible 0 (calls ++ more) := by decide
  have hcalls : Possible 0 calls := by decide
  obtain ⟨hanswers, hhandles⟩ := relatives_share_log hcalls
  obtain ⟨-, -, hfar, -, hbytes⟩ := hhandles 1 (by decide)
  have hother : ¬ Related (calls ++ more) 1 2 :=
    (related_iff hall (by decide) (by decide)).not.mpr (by decide)
  have h1 : Related calls 1 1 := .refl 1
  have h2 : ¬ Related calls 1 2 := (related_iff hcalls (by decide) (by decide)).not.mpr (by decide)
  have h3 : Related calls 1 3 := (related_iff hcalls (by decide) (by decide)).mpr (by decide)
  refine ⟨hall, hanswers ▸ by decide, hfar more hall (by simpa [more, Call.handle?] using hother),
    hbytes.trans ?_⟩
  calc written (Related calls 1) calls
      = (if Related calls 1 1 then [0xC3] else []) ++ ((if Related calls 1 2 then [0x78] else []) ++
          ((if Related calls 1 3 then [0xA9, 0x21] else []) ++ [])) := rfl
    _ = [0xC3, 0xA9, 0x21] := by rw [if_pos h1, if_neg h2, if_pos h3]; rfl

end SharedLog

end FileShell

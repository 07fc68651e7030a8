/-
FileShell.Proofs.SharedLog.Relatives — which handles share a log.

Two handles are related if a chain of clones leads from one to the other
(`Related`). This is said on the calls alone, without the logs. The logs
agree with it: two handles are related exactly if they write to the same
log (`related_iff`). A clone starts with the log of the handle it was made
from, a handle keeps its log for good (`logOf_append_of_lt`), and a new
handle that is no clone has a log that none before it has
(`logOf_create_ne`).

A call is possible if the handle it goes through is given out by then
(`Possible`).
-/
import Mathlib.Data.List.Induction
import Mathlib.Logic.Relation
import FileShell.SharedLog

namespace FileShell

namespace SharedLog

/-! ## Handles and clones, told from the calls -/

/-- The handle that a call goes through. -/
def Call.handle? : Call → Option Nat
  | .create => none
  | .clone handle | .write handle _ | .flush handle | .contents handle | .take handle => some handle

/-- Whether a call gives out a handle. -/
def Call.gives : Call → Bool
  | .create | .clone _ => true
  | _ => false

/-- How many handles calls give out. They are numbered in order. -/
def given (calls : List Call) : Nat := calls.countP Call.gives

/-- Calls that can be made when there are `n` handles: each goes through a
handle that is there by then. -/
def Possible : Nat → List Call → Prop
  | _, [] => True
  | n, c :: rest => (∀ handle ∈ c.handle?, handle < n) ∧ Possible (n + given [c]) rest

instance decidablePossible : ∀ (n : Nat) (calls : List Call), Decidable (Possible n calls)
  | _, [] => inferInstanceAs (Decidable True)
  | n, c :: rest =>
    have := decidablePossible (n + given [c]) rest
    inferInstanceAs (Decidable ((∀ handle ∈ c.handle?, handle < n) ∧ _))

/-- One of the calls gave out `copy` as a clone of `handle`. -/
def IsClone (calls : List Call) (handle copy : Nat) : Prop :=
  ∃ before, before ++ [.clone handle] <+: calls ∧ given before = copy

/-- A chain of clones leads from one handle to the other. Each link of it is
followed from a handle to its clone or back, so that two clones of one
handle are related as well. -/
def Related (calls : List Call) : Nat → Nat → Prop := Relation.EqvGen (IsClone calls)

theorem given_append (front rest : List Call) : given (front ++ rest) = given front + given rest :=
  List.countP_append

theorem possible_append (n : Nat) (front rest : List Call) :
    Possible n (front ++ rest) ↔ Possible n front ∧ Possible (n + given front) rest := by
  induction front generalizing n with
  | nil => simp [Possible, given]
  | cons c front ih =>
    rw [List.cons_append, Possible, Possible, ih, and_assoc, Nat.add_assoc, ← given_append,
      List.singleton_append]

theorem possible_concat (calls : List Call) (c : Call) :
    Possible 0 (calls ++ [c]) ↔ Possible 0 calls ∧ ∀ handle ∈ c.handle?, handle < given calls := by
  rw [possible_append, Nat.zero_add, Possible, Possible, and_true]

theorem isClone_concat {calls : List Call} {c : Call} {handle copy : Nat} :
    IsClone (calls ++ [c]) handle copy ↔
      IsClone calls handle copy ∨ c = .clone handle ∧ given calls = copy := by
  simp only [IsClone, List.prefix_concat_iff, or_and_right, exists_or]
  rw [or_comm]
  refine or_congr_right ⟨?_, ?_⟩
  · rintro ⟨before, heq, hcopy⟩
    obtain ⟨rfl, hc⟩ := List.append_inj' heq rfl
    exact ⟨(List.singleton_inj.mp hc).symm, hcopy⟩
  · rintro ⟨rfl, hcopy⟩
    exact ⟨calls, rfl, hcopy⟩

/-! ## The handles after calls -/

/-- Every handle writes to a log that is there. -/
def IsSound (s : SharedLog) : Prop := ∀ i ∈ s.handles, i < s.logs.length

section

variable {s : SharedLog} {c : Call} {calls : List Call} {handle : Nat}

theorem exists_logOf (hhandle : handle < s.handles.length) : ∃ i, s.logOf handle = some i :=
  ⟨_, List.getElem?_eq_getElem hhandle⟩

theorem IsSound.lt_length {i : Nat} (hs : s.IsSound) (hi : s.logOf handle = some i) :
    i < s.logs.length :=
  hs i (List.mem_of_getElem? hi)

theorem modify_of_logOf {i : Nat} (hi : s.logOf handle = some i) (f : Bytes → Bytes) :
    s.modify handle f = { s with logs := s.logs.modify i f } := by
  rw [modify, hi]

theorem handles_modify (s : SharedLog) (handle : Nat) (f : Bytes → Bytes) :
    (s.modify handle f).handles = s.handles := by
  rw [modify]
  split <;> rfl

theorem length_logs_modify (s : SharedLog) (handle : Nat) (f : Bytes → Bytes) :
    (s.modify handle f).logs.length = s.logs.length := by
  rw [modify]
  split
  · exact List.length_modify _ _ _
  · rfl

/-- The handles that a call adds, by their logs. -/
def added (s : SharedLog) : Call → List Nat
  | .create => [s.logs.length]
  | .clone handle => [(s.logOf handle).getD s.logs.length]
  | _ => []

theorem handles_answer (s : SharedLog) (c : Call) :
    (s.answer c).2.handles = s.handles ++ s.added c := by
  cases c with
  | clone handle =>
    simp only [answer, clone, added]
    cases s.logOf handle <;> rfl
  | write handle data => simp [answer, write, handles_modify, added]
  | take handle => simp [answer, take, drain, handles_modify, added]
  | create | flush _ | contents _ => simp [answer, create, flush, added]

theorem length_added (s : SharedLog) (c : Call) : (s.added c).length = given [c] := by
  cases c <;> rfl

theorem logOf_answer_of_lt (hhandle : handle < s.handles.length) (c : Call) :
    (s.answer c).2.logOf handle = s.logOf handle := by
  rw [logOf, handles_answer, List.getElem?_append_left hhandle, logOf]

theorem isSound_create (hs : s.IsSound) : s.create.2.IsSound := by
  intro i hi
  have hi : i ∈ s.handles ∨ i = s.logs.length := by simpa [create] using hi
  rw [create, List.length_append, List.length_singleton]
  rcases hi with hi | rfl
  · exact Nat.lt_succ_of_lt (hs i hi)
  · exact Nat.lt_succ_self _

theorem isSound_clone (hs : s.IsSound) (handle : Nat) : (s.clone handle).2.IsSound := by
  cases hlog : s.logOf handle with
  | none => simpa only [clone, hlog] using isSound_create hs
  | some i =>
    simp only [clone, hlog]
    intro j hj
    rcases List.mem_append.mp hj with hj | hj
    · exact hs j hj
    · rw [List.mem_singleton.mp hj]
      exact hs.lt_length hlog

theorem isSound_modify (hs : s.IsSound) (handle : Nat) (f : Bytes → Bytes) :
    (s.modify handle f).IsSound := by
  intro i hi
  rw [handles_modify] at hi
  rw [length_logs_modify]
  exact hs i hi

theorem isSound_answer (hs : s.IsSound) (c : Call) : (s.answer c).2.IsSound := by
  cases c with
  | create => exact isSound_create hs
  | clone handle => exact isSound_clone hs handle
  | write handle data => exact isSound_modify hs handle _
  | take handle => exact isSound_modify hs handle _
  | flush _ | contents _ => exact hs

theorem after_concat (s : SharedLog) (calls : List Call) (c : Call) :
    s.after (calls ++ [c]) = ((s.after calls).answer c).2 := by
  rw [after, List.foldl_append]
  rfl

theorem after_append (s : SharedLog) (front rest : List Call) :
    s.after (front ++ rest) = (s.after front).after rest :=
  List.foldl_append

theorem isSound_after (hs : s.IsSound) (calls : List Call) : (s.after calls).IsSound := by
  induction calls using List.reverseRecOn with
  | nil => exact hs
  | append_singleton calls c ih =>
    rw [after_concat]
    exact isSound_answer ih c

theorem isSound_empty : empty.IsSound := nofun

theorem length_handles_after (s : SharedLog) (calls : List Call) :
    (s.after calls).handles.length = s.handles.length + given calls := by
  induction calls using List.reverseRecOn with
  | nil => rfl
  | append_singleton calls c ih =>
    rw [after_concat, handles_answer, List.length_append, length_added, ih, given_append,
      Nat.add_assoc]

theorem logOf_after_of_lt (hhandle : handle < s.handles.length) (calls : List Call) :
    (s.after calls).logOf handle = s.logOf handle := by
  induction calls using List.reverseRecOn with
  | nil => rfl
  | append_singleton calls c ih =>
    have hthere : handle < (s.after calls).handles.length := by
      rw [length_handles_after]
      exact Nat.lt_add_right _ hhandle
    rw [after_concat, logOf_answer_of_lt hthere c, ih]

/-! ## Relatives share a log -/

/-- There are as many handles as were given out. -/
theorem length_handles (calls : List Call) : (empty.after calls).handles.length = given calls := by
  rw [length_handles_after]
  exact Nat.zero_add _

/-- A handle keeps its log. -/
theorem logOf_append_of_lt (hhandle : handle < given calls) (rest : List Call) :
    (empty.after (calls ++ rest)).logOf handle = (empty.after calls).logOf handle := by
  rw [after_append]
  exact logOf_after_of_lt (length_handles calls ▸ hhandle) rest

/-- The log of a handle that is given out by a call. -/
theorem logOf_given (calls : List Call) (c : Call) :
    (empty.after (calls ++ [c])).logOf (given calls) = ((empty.after calls).added c).head? := by
  rw [after_concat, logOf, handles_answer, ← length_handles calls,
    List.getElem?_append_right (Nat.le_refl _), Nat.sub_self, List.head?_eq_getElem?]

theorem logOf_clone (hhandle : handle < given calls) :
    (empty.after (calls ++ [.clone handle])).logOf (given calls) =
      (empty.after calls).logOf handle := by
  obtain ⟨i, hi⟩ := exists_logOf (length_handles calls ▸ hhandle)
  rw [logOf_given, added, hi]
  rfl

theorem IsClone.logOf_eq {copy : Nat} (hcalls : Possible 0 calls)
    (h : IsClone calls handle copy) :
    (empty.after calls).logOf handle = (empty.after calls).logOf copy := by
  obtain ⟨before, ⟨rest, rfl⟩, rfl⟩ := h
  obtain ⟨hpast, -⟩ := (possible_append 0 _ rest).mp hcalls
  have hknown : handle < given before := ((possible_concat before _).mp hpast).2 handle rfl
  have hgiven : given (before ++ [.clone handle]) = given before + 1 := given_append before _
  calc (empty.after (before ++ [.clone handle] ++ rest)).logOf handle
      = (empty.after before).logOf handle := by
        rw [List.append_assoc, logOf_append_of_lt hknown]
    _ = (empty.after (before ++ [.clone handle])).logOf (given before) := (logOf_clone hknown).symm
    _ = (empty.after (before ++ [.clone handle] ++ rest)).logOf (given before) :=
        (logOf_append_of_lt (hgiven ▸ Nat.lt_succ_self _) rest).symm

theorem related_equivalence (calls : List Call) : Equivalence (Related calls) :=
  Relation.EqvGen.is_equivalence _

theorem Related.logOf_eq {a b : Nat} (hcalls : Possible 0 calls) (h : Related calls a b) :
    (empty.after calls).logOf a = (empty.after calls).logOf b := by
  induction h with
  | rel a b hclone => exact hclone.logOf_eq hcalls
  | refl a => rfl
  | symm a b _ ih => exact ih.symm
  | trans a b c _ _ ihab ihbc => exact ihab.trans ihbc

theorem Related.concat {a b : Nat} (h : Related calls a b) (c : Call) :
    Related (calls ++ [c]) a b :=
  Relation.EqvGen.mono (fun _ _ hclone => isClone_concat.mpr (.inl hclone)) _ _ h

/-- A handle that is there after a call which makes no log has a relative
that was there before, with the same log. -/
theorem exists_older (hcalls : Possible 0 (calls ++ [c])) (hcreate : c ≠ .create) {a : Nat}
    (ha : a < given (calls ++ [c])) :
    ∃ b < given calls, Related (calls ++ [c]) b a ∧
      (empty.after calls).logOf b = (empty.after (calls ++ [c])).logOf a := by
  by_cases hold : a < given calls
  · exact ⟨a, hold, .refl a, (logOf_append_of_lt hold [c]).symm⟩
  · rw [given_append] at ha
    cases c with
    | create => exact absurd rfl hcreate
    | clone handle =>
      have hone : given [.clone handle] = 1 := rfl
      have hnew : a = given calls := by omega
      have hknown : handle < given calls := ((possible_concat calls _).mp hcalls).2 handle rfl
      subst hnew
      exact ⟨handle, hknown, .rel _ _ (isClone_concat.mpr (.inr ⟨rfl, rfl⟩)),
        (logOf_clone hknown).symm⟩
    | write _ _ | flush _ | contents _ | take _ => exact absurd ha hold

/-- A handle that is no clone has a log of its own. -/
theorem logOf_create_ne (hhandle : handle < given calls) :
    (empty.after (calls ++ [.create])).logOf handle ≠
      (empty.after (calls ++ [.create])).logOf (given calls) := by
  obtain ⟨i, hi⟩ := exists_logOf (length_handles calls ▸ hhandle)
  have hlt := (isSound_after isSound_empty calls).lt_length hi
  rw [logOf_append_of_lt hhandle, logOf_given, hi]
  exact fun h => Nat.ne_of_lt hlt (Option.some.inj h)

/-- Handles that share a log are related. -/
theorem related_of_logOf_eq (hcalls : Possible 0 calls) {a b : Nat} (ha : a < given calls)
    (hb : b < given calls) (h : (empty.after calls).logOf a = (empty.after calls).logOf b) :
    Related calls a b := by
  induction calls using List.reverseRecOn generalizing a b with
  | nil => exact absurd ha (Nat.not_lt_zero a)
  | append_singleton calls c ih =>
    have hpast := ((possible_concat calls c).mp hcalls).1
    by_cases hcreate : c = .create
    · -- The new handle shares its log with no older one.
      subst hcreate
      have hnew (x : Nat) (hx : x < given (calls ++ [.create])) :
          x < given calls ∨ x = given calls := by
        rw [given_append] at hx
        exact Nat.lt_succ_iff_lt_or_eq.mp hx
      rcases hnew a ha with ha | rfl <;> rcases hnew b hb with hb | rfl
      · rw [logOf_append_of_lt ha, logOf_append_of_lt hb] at h
        exact (ih hpast ha hb h).concat .create
      · exact absurd h (logOf_create_ne ha)
      · exact absurd h.symm (logOf_create_ne hb)
      · exact .refl _
    · obtain ⟨a', ha', hrela, hloga⟩ := exists_older hcalls hcreate ha
      obtain ⟨b', hb', hrelb, hlogb⟩ := exists_older hcalls hcreate hb
      have hrel : Related calls a' b' := ih hpast ha' hb' (hloga.trans (h.trans hlogb.symm))
      have heq := related_equivalence (calls ++ [c])
      exact heq.trans (heq.symm hrela) (heq.trans (hrel.concat c) hrelb)

/-- Two handles are related exactly if they write to the same log. -/
theorem related_iff (hcalls : Possible 0 calls) {a b : Nat} (ha : a < given calls)
    (hb : b < given calls) :
    Related calls a b ↔ (empty.after calls).logOf a = (empty.after calls).logOf b :=
  ⟨fun h => h.logOf_eq hcalls, related_of_logOf_eq hcalls ha hb⟩

end

end SharedLog

end FileShell

/-
FileShell.Proofs.Host.Making — making an entry, and taking it away again.

A directory and a file are made alike: the path is followed to its last
name, and the name has to be free (`vacancy`). What is made there leaves
every directory and every link where it was, so all walks that ended
before still end where they did, and the path that was free names the new
entry (`Made`).

Taking the new entry away again is therefore done at the same place, and
gives back the very tree there was before, the order of the entries
included (`remove_put`). Only a process directory that named a place where
nothing was could tell the difference.
-/
import FileShell.Proofs.Host.Renaming
import FileShell.Proofs.Host.Stepping

namespace FileShell

namespace Host

open IoError (Cause)

/-! ## Putting and removing -/

namespace Entries

theorem put_of_get? {es : Entries} {name : Text} {node : Node} (h : get? es name = some node) :
    put es name node = es := by
  induction es with
  | nil => cases h
  | cons e rest ih =>
    rw [put]
    by_cases he : e.1 = name
    · subst he
      rw [get?, List.lookup_cons_self] at h
      rw [if_pos rfl, ← Option.some.inj h]
    · rw [get?, List.lookup_cons, beq_false_of_ne (Ne.symm he)] at h
      rw [if_neg he, ih h]

theorem put_put (es : Entries) (name : Text) (node node' : Node) :
    put (put es name node) name node' = put es name node' := by
  induction es with
  | nil => simp [put]
  | cons e rest ih =>
    by_cases he : e.1 = name
    · simp [put, he]
    · simp [put, he, ih]

/-- A new name, put and removed, leaves the entries as they were. -/
theorem remove_put {es : Entries} {name : Text} (h : get? es name = none) (node : Node) :
    remove (put es name node) name = es := by
  induction es with
  | nil => simp [put, remove]
  | cons e rest ih =>
    have he : e.1 ≠ name := fun he => by
      rw [get?, List.lookup_cons, he, beq_self_eq_true] at h
      cases h
    rw [get?, List.lookup_cons, beq_false_of_ne he.symm] at h
    rw [put, if_neg he, remove, List.filter_cons_of_pos (by simpa using he)]
    exact congrArg (e :: ·) (ih h)

end Entries

namespace Node

/-- Two changes at one place are one. -/
theorem modify_modify (f g : Node → Node) (root : Node) (place : Place) :
    (root.modify f place).modify g place = root.modify (fun node => g (f node)) place := by
  induction place generalizing root with
  | nil => rfl
  | cons name rest ih =>
    cases root with
    | directory v es =>
      cases hname : Entries.get? es name with
      | none => simp [modify, hname]
      | some node => simp [modify, hname, Entries.get?_put, Entries.put_put, ih]
    | _ => rfl

/-- A change of a node to itself is none. -/
theorem modify_of_find? {f : Node → Node} {root node : Node} {place : Place}
    (hnode : root.find? place = some node) (hf : f node = node) : root.modify f place = root := by
  induction place generalizing root with
  | nil =>
    obtain rfl : root = node := Option.some.inj (root.find?_nil.symm.trans hnode)
    exact hf
  | cons name rest ih =>
    cases root with
    | directory v es =>
      rw [find?_cons] at hnode
      obtain ⟨child, hchild, hrest⟩ := Option.bind_eq_some_iff.mp hnode
      have hname : Entries.get? es name = some child := hchild
      simp only [modify, hname, ih hrest, Entries.put_of_get? hname]
    | _ => rfl

end Node

variable {h h' : Host} {p : Path} {place directory : Place} {n : Text} {v : Nat} {node : Node}

/-- A new entry, put and removed, leaves the machine as it was. -/
theorem remove_put (hd : h.root.face? directory = some (.directory v))
    (hfree : h.root.face? (directory ++ [n]) = none) (node : Node) :
    (h.put directory n node).remove directory n = h := by
  obtain ⟨parent, hparent, hface⟩ := Option.map_eq_some_iff.mp hd
  have hsame :
      (parent.withEntries (Entries.put · n node)).withEntries (Entries.remove · n) = parent := by
    cases parent with
    | directory u es =>
      have hname : Entries.get? es n = none := by
        rw [← Node.find?_eq_none_iff, Node.find?_append, hparent, Option.bind_some,
          Node.find?_cons, Option.bind_eq_none_iff] at hfree
        cases hchild : Entries.get? es n with
        | none => rfl
        | some child => cases (child.find?_nil).symm.trans (hfree child hchild)
      exact congrArg (Node.directory u) (Entries.remove_put hname node)
    | _ => cases hface
  have hroot : ((h.put directory n node).remove directory n).root = h.root := by
    rw [remove, put, Node.edit, Node.edit, Node.modify_modify]
    exact Node.modify_of_find? hparent hsame
  exact congrArg (fun root => { h with root }) hroot

/-- A new entry leaves every directory and every link where it was. -/
theorem waysIn_put (hfree : h.root.face? (directory ++ [n]) = none) (node : Node) :
    h.root.WaysIn (h.put directory n node).root := by
  intro q f hq _
  rw [face?_put_off h node, hq]
  intro hbelow
  by_cases hne : q = directory ++ [n]
  · rw [hne, hfree] at hq
    cases hq
  · obtain ⟨name, rest, rfl⟩ := Node.exists_below_of_prefix hbelow hne
    rw [Node.face?_below (Node.not_isDirectoryAt_none hfree)] at hq
    cases hq

/-! ## A free name -/

/-- The directory and the name of a path whose last name is free. -/
def vacancy (h : Host) (p : Path) : Except Cause (Place × Text) := do
  let s ← h.parent p
  match s.ending with
  | .name n =>
    let directory ← s.directory.open?
    match ← h.lookup directory n with
    | some _ => throw .exists
    | none => return (directory, n)
  | _ => throw .exists

theorem createDirectory?_eq (h : Host) (p : Path) :
    h.createDirectory? p = (h.vacancy p).map fun (d, n) =>
      h.put d n (.directory ((h.root.volumeAt d).getD 0) []) := by
  unfold createDirectory? vacancy
  cases h.parent p with
  | error c => rfl
  | ok s =>
    cases hending : s.ending with
    | name n =>
      simp only [bind, Except.bind, hending]
      cases s.directory.open? with
      | error c => rfl
      | ok d =>
        dsimp only
        cases h.lookup d n with
        | error c => rfl
        | ok found => cases found <;> rfl
    | _ => simp only [bind, Except.bind, hending]; rfl

/-- A path without a slash at its end is split without one. -/
theorem slash_of_parent (hslash : (steps p).getLast? ≠ some .slash) {s : Split}
    (hs : h.parent p = .ok s) : s.slash = false := by
  rw [parent] at hs
  split at hs
  · cases hs
  · simp only [splitSteps, hslash, decide_false] at hs
    split at hs
    · cases hs
    · obtain rfl := Except.ok.inj hs
      split <;> rfl

/-- A file is made where a directory would be, unless a slash follows its name. -/
theorem createFile?_eq (hslash : (steps p).getLast? ≠ some .slash) :
    h.createFile? p = (h.vacancy p).map fun (d, n) => h.put d n (.file []) := by
  unfold createFile? vacancy
  cases hs : h.parent p with
  | error c => rfl
  | ok s =>
    have hs' := slash_of_parent hslash hs
    cases hending : s.ending with
    | name n =>
      simp only [bind, Except.bind, hending, hs', Bool.false_eq_true, if_false]
      cases s.directory.open? with
      | error c => rfl
      | ok d =>
        dsimp only
        cases h.lookup d n with
        | error c => rfl
        | ok found => cases found <;> rfl
    | _ => simp only [bind, Except.bind, hending]; rfl

/-- A free name is in a directory, and the path names it. -/
theorem vacancy_ok (hslash : (steps p).getLast? ≠ some .slash)
    (hv : h.vacancy p = .ok (directory, n)) :
    h.Names p (directory ++ [n]) ∧ h.root.face? (directory ++ [n]) = none := by
  unfold vacancy at hv
  cases hs : h.parent p with
  | error c =>
    rw [hs] at hv
    cases hv
  | ok s =>
    obtain ⟨here, ending, slash⟩ := s
    obtain rfl : slash = false := slash_of_parent hslash hs
    rw [hs] at hv
    cases ending with
    | name m =>
      cases here with
      | removed above => cases hv
      | inTree d =>
        simp only [bind, Except.bind, Spot.open?] at hv
        cases hl : h.lookup d m with
        | error c =>
          rw [hl] at hv
          cases hv
        | ok found =>
          rw [hl] at hv
          cases found with
          | some _ => cases hv
          | none =>
            cases hv
            obtain ⟨hsize, hfind⟩ := lookup_eq_ok hl
            exact ⟨⟨_, _, hs, hsize, rfl⟩, Node.find?_eq_none_iff.mp hfind⟩
    | _ => cases hv

/-! ## New entries -/

/-- A machine is another one with a new entry, which the path names. -/
structure Made (h h' : Host) (p : Path) (directory : Place) (n : Text) (node : Node) : Prop where
  nul : hasNul p = false
  names : h.Names p (directory ++ [n])
  free : h.root.face? (directory ++ [n]) = none
  put : h' = h.put directory n node

theorem guarded_eq_ok {op : Except Cause Host} (hg : h.guarded p op = (.ok (), h')) :
    hasNul p = false ∧ op = .ok h' := by
  unfold guarded at hg
  split at hg
  · cases hg
  · next hnul =>
    refine ⟨by simpa using hnul, ?_⟩
    cases op with
    | error c => cases hg
    | ok h'' => exact congrArg Except.ok (Prod.mk.inj hg).2

/-- A refused operation changes nothing. -/
theorem guarded_error {op : Except Cause Host} {e : IoError}
    (hg : h.guarded p op = (.error e, h')) :
    h' = h ∧ (e = .nulInPath ∨ hasNul p = false ∧ ∃ c, op = .error c ∧ e = .system c) := by
  unfold guarded at hg
  split at hg
  · obtain ⟨he, rfl⟩ := Prod.mk.inj hg
    exact ⟨rfl, .inl (Except.error.inj he).symm⟩
  · next hnul =>
    cases op with
    | error c =>
      obtain ⟨he, rfl⟩ := Prod.mk.inj hg
      exact ⟨rfl, .inr ⟨by simpa using hnul, c, rfl, (Except.error.inj he).symm⟩⟩
    | ok h'' => cases (Prod.mk.inj hg).1

theorem guarded_of_ok (hnul : hasNul p = false) : h.guarded p (.ok h') = (.ok (), h') := by
  simp [guarded, hnul]

section

variable (hm : Made h h' p directory n node)
include hm

theorem Made.standsIn : ∃ v, h.root.face? directory = some (.directory v) := by
  obtain ⟨front, a, v, -, -, hplace, hface⟩ := hm.names.parent
  obtain ⟨rfl, -⟩ := List.append_inj' hplace rfl
  exact ⟨v, hface⟩

theorem Made.find? : h'.root.find? (directory ++ [n]) = some node := by
  obtain ⟨v, hd⟩ := hm.standsIn
  rw [hm.put, find?_put h node hd]

/-- The path that was free names the new entry. -/
theorem Made.names' : h'.Names p (directory ++ [n]) := by
  obtain rfl := hm.put
  exact hm.names.transfer (waysIn_put hm.free node) (origin_congr rfl p)

/-- The path that was free leads to the new entry, unless that is a link. -/
theorem Made.reaches (hlink : ∀ target, node ≠ .link target) :
    h'.Reaches p (directory ++ [n]) := by
  refine hm.names'.reaches hm.nul (Node.face?_of_find? hm.find?) fun target hface => ?_
  cases node with
  | link target => exact hlink target rfl
  | _ => cases hface

/-- So every question about that path is answered by the new entry. -/
theorem Made.locate' (hlink : ∀ target, node ≠ .link target) :
    h'.locate p = .ok (.inTree (directory ++ [n]), node) :=
  (hm.reaches hlink).locate hm.find?

theorem Made.exists? (hlink : ∀ target, node ≠ .link target) : h'.exists? p = true := by
  rw [Host.exists?, hm.locate' hlink]
  rfl

theorem Made.isDirectory (hlink : ∀ target, node ≠ .link target) :
    h'.isDirectory p = node.isDirectory := by
  rw [Host.isDirectory, hm.locate' hlink]

/-- The new entry is looked up where the name was free. -/
theorem Made.parent' : h'.parent p = .ok ⟨.inTree directory, .name n, false⟩ ∧
    h'.lookup directory n = .ok (some node) := by
  obtain ⟨front, a, v, hparent, hsize, hplace, -⟩ := hm.names'.parent
  obtain ⟨rfl, ha⟩ := List.append_inj' hplace rfl
  obtain rfl := (List.cons.inj ha).1
  exact ⟨hparent, by rw [lookup, if_neg hsize, hm.find?]⟩

/-- The name is no longer free, so no file is made there. -/
theorem Made.createFile : h'.createFile p = (.error (.system .exists), h') := by
  obtain ⟨hparent, hlookup⟩ := hm.parent'
  have hop : h'.createFile? p = .error .exists := by
    simp only [createFile?, hparent, bind, Except.bind, Bool.false_eq_true, if_false, Spot.open?,
      hlookup]
    rfl
  rw [Host.createFile, hop, guarded, hm.nul]
  rfl

/-- Where the new entry was, nothing was, so nobody stood there. -/
theorem Made.without (hd : h.root.StandsAt h.process) :
    h.process.without (directory ++ [n]) = h.process :=
  without_of_standsAt hd (Node.not_isDirectoryAt_none hm.free)

/-- Taking the new entry out again. -/
theorem Made.remove' : h'.remove directory n = h := by
  obtain ⟨v, hd⟩ := hm.standsIn
  rw [hm.put, remove_put hd hm.free]

end

/-! ## Made and removed -/

section

variable (hslash : (steps p).getLast? ≠ some .slash)
include hslash

/-- What is made at a free name is the entry that was to be made there. -/
theorem made_of_guarded (new : Place → Node)
    (hg : h.guarded p ((h.vacancy p).map fun found => h.put found.1 found.2 (new found.1)) =
      (.ok (), h')) :
    ∃ directory n, Made h h' p directory n (new directory) := by
  obtain ⟨hnul, hop⟩ := guarded_eq_ok hg
  cases hv : h.vacancy p with
  | error c =>
    rw [hv] at hop
    cases hop
  | ok found =>
    obtain ⟨d, n⟩ := found
    rw [hv] at hop
    obtain ⟨hnames, hfree⟩ := vacancy_ok hslash hv
    exact ⟨d, n, hnul, hnames, hfree, (Except.ok.inj hop).symm⟩

/-- A new directory is empty, and on the volume of the one it is in. -/
theorem made_of_createDirectory (hc : h.createDirectory p = (.ok (), h')) :
    ∃ directory n v, h.root.volumeAt directory = some v ∧
      Made h h' p directory n (.directory v []) := by
  rw [createDirectory, createDirectory?_eq] at hc
  obtain ⟨d, n, hmade⟩ :=
    made_of_guarded hslash (fun d => .directory ((h.root.volumeAt d).getD 0) []) hc
  obtain ⟨v, hface⟩ := hmade.standsIn
  have hvolume := Node.volumeAt_eq_some_iff.mpr hface
  rw [hvolume, Option.getD_some] at hmade
  exact ⟨d, n, v, hvolume, hmade⟩

/-- A new file is empty. -/
theorem made_of_createFile (hc : h.createFile p = (.ok (), h')) :
    ∃ directory n, Made h h' p directory n (.file []) := by
  rw [createFile, createFile?_eq hslash] at hc
  exact made_of_guarded hslash (fun _ => .file []) hc

end

/-- A new directory can be removed, and then all is as it was before. -/
theorem Made.removeDirectory {v : Nat} (hm : Made h h' p directory n (.directory v []))
    (hv : h.root.volumeAt directory = some v) :
    h'.removeDirectory p =
      (.ok (), { h with process := h.process.without (directory ++ [n]) }) := by
  obtain ⟨hparent, hlookup⟩ := hm.parent'
  have hvolume : h'.root.volumeAt directory = some v := by
    have hface := waysIn_put hm.free (.directory v []) _ _ (Node.volumeAt_eq_some_iff.mp hv) rfl
    rw [hm.put]
    exact Node.volumeAt_eq_some_iff.mpr hface
  have hprocess : h'.process = h.process := (congrArg Host.process hm.put :)
  have hop : h'.removeDirectory? p =
      .ok { h with process := h.process.without (directory ++ [n]) } := by
    simp only [removeDirectory?, hparent, bind, Except.bind, Spot.open?, hlookup, isMountPoint,
      hvolume, ne_eq, not_true_eq_false, decide_false, Bool.false_eq_true, if_false,
      List.isEmpty_nil, Bool.not_true, hm.remove', hprocess]
    rfl
  rw [Host.removeDirectory, hop, guarded_of_ok hm.nul]

/-- A new file can be removed, and then all is as it was before. -/
theorem Made.removeFile (hm : Made h h' p directory n (.file [])) :
    h'.removeFile p = (.ok (), h) := by
  obtain ⟨hparent, hlookup⟩ := hm.parent'
  have hop : h'.removeFile? p = .ok h := by
    simp only [removeFile?, hparent, bind, Except.bind, Spot.open?, hlookup,
      Bool.false_eq_true, if_false, hm.remove']
    rfl
  rw [Host.removeFile, hop, guarded_of_ok hm.nul]

end Host

end FileShell

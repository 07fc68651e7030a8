/-
FileShell.Proofs.Host.Renaming — what the system's own renaming does to a
regular file.

A renaming that succeeds is one of two things (`rename?_ok`): nothing, if
both paths name the one entry, or the file's entry taken away and put
where the other path says (`Renamed`), in the place of nothing or of an
entry that is no directory. One that is refused changes nothing.

The file is no way, so every way of the machine afterwards was there
before (`Renamed.waysIn_symm`). The other direction may fail by one entry:
the link whose place the file took.
-/
import FileShell.Proofs.Host.Writing
import FileShell.Host.Move

namespace FileShell

namespace Host

open IoError (Cause)

variable {h h' : Host} {source target : Path} {here there : Place} {content : Bytes}

/-- The entry of a file was taken from one place and put at another. -/
structure Renamed (h h' : Host) (here there : Place) (content : Bytes) : Prop where
  replaced : ¬ h.root.IsDirectoryAt there
  put : h'.root.face? there = some (.file content)
  gone : h'.root.face? here = none
  elsewhere : ∀ q, q ≠ here → q ≠ there → h'.root.face? q = h.root.face? q
  process : h.root.StandsAt h.process → h'.process = h.process

/-! ## Taking an entry away -/

/-- An entry that is no directory is taken away, and nothing else. -/
theorem face?_remove {directory : Place} {n : Text} {v : Nat}
    (hd : h.root.face? directory = some (.directory v))
    (hplain : ¬ h.root.IsDirectoryAt (directory ++ [n])) :
    (h.remove directory n).root.face? (directory ++ [n]) = none ∧
      ∀ q, q ≠ directory ++ [n] → (h.remove directory n).root.face? q = h.root.face? q := by
  have hnone : (h.remove directory n).root.face? (directory ++ [n]) = none :=
    Node.find?_eq_none_iff.mp (find?_remove h hd)
  refine ⟨hnone, fun q hq => ?_⟩
  exact Node.face?_eq_of_ne (fun q hq => face?_remove_off h hq) hplain
    (Node.not_isDirectoryAt_none hnone) hq

/-! ## Renaming -/

theorem mayReplace_file {o : Option Node} (hr : mayReplace (.file content) o = .ok ()) :
    ∀ old, o = some old → old.isDirectory = false := by
  rintro old rfl
  cases old with
  | directory v es => cases hr
  | _ => rfl

/-- Taking a file away and putting it elsewhere. -/
theorem renamed_remove_put {front goal : Place} {a b : Text} {v v' : Nat}
    (hfront : h.root.face? front = some (.directory v))
    (hgoal : h.root.face? goal = some (.directory v'))
    (hfile : h.root.face? (front ++ [a]) = some (.file content))
    (hold : ¬ h.root.IsDirectoryAt (goal ++ [b])) (hne : front ++ [a] ≠ goal ++ [b]) :
    Renamed h
      { (h.remove front a).put goal b (.file content) with
        process := (h.process.without (goal ++ [b])).moved (front ++ [a]) (goal ++ [b]) }
      (front ++ [a]) (goal ++ [b]) content := by
  have hplain : ¬ h.root.IsDirectoryAt (front ++ [a]) := Node.not_isDirectoryAt_some hfile rfl
  obtain ⟨hgone, hothers⟩ := face?_remove hfront hplain
  have hgoal' : (h.remove front a).root.face? goal = some (.directory v') := by
    rw [hothers goal ?_, hgoal]
    rintro rfl
    cases hfile.symm.trans hgoal
  have hold' : ¬ (h.remove front a).root.IsDirectoryAt (goal ++ [b]) := by
    rwa [Node.IsDirectoryAt, hothers _ hne.symm]
  have hput := changedAt_put hgoal' hold' (.file content) rfl
  refine ⟨hold, hput.here, ?_, fun q hq hq' => ?_, fun hd => ?_⟩
  · exact (hput.elsewhere _ hne).trans hgone
  · exact (hput.elsewhere q hq').trans (hothers q hq)
  · have hwithout := without_of_standsAt hd hold
    simp only [hwithout]
    exact moved_of_standsAt hd hplain _

theorem lookup_file {directory : Place} {n : Text} (hsize : ¬ nameLimit < Utf8.size n)
    (hfile : h.root.face? (directory ++ [n]) = some (.file content)) :
    h.lookup directory n = .ok (some (.file content)) := by
  rw [lookup, if_neg hsize, Node.find?_file_iff.mpr hfile]

theorem lookup_eq_ok {directory : Place} {n : Text} {o : Option Node}
    (hl : h.lookup directory n = .ok o) :
    ¬ nameLimit < Utf8.size n ∧ h.root.find? (directory ++ [n]) = o := by
  rw [lookup] at hl
  split at hl
  · cases hl
  · next hsize => exact ⟨hsize, Except.ok.inj hl⟩

/-- What a renaming of a file has found out when it succeeds, and does. -/
theorem rename?_inTree {front goal : Place} {a b : Text} {slash : Bool} {rights : Rights}
    (hold : h.parent source = .ok ⟨.inTree front, .name a, false⟩)
    (hlook : h.lookup front a = .ok (some (.file content)))
    (hnew : h.parent target = .ok ⟨.inTree goal, .name b, slash⟩)
    (hr : h.rename? source target rights = .ok h') :
    slash = false ∧ ¬ nameLimit < Utf8.size b ∧
      ((front ++ [a] = goal ++ [b] ∧ h' = h) ∨
        (front ++ [a] ≠ goal ++ [b] ∧ ¬ h.root.IsDirectoryAt (goal ++ [b]) ∧
          h' = { (h.remove front a).put goal b (.file content) with
            process := (h.process.without (goal ++ [b])).moved (front ++ [a]) (goal ++ [b]) })) := by
  simp only [rename?, bind, Except.bind, pure, Except.pure, throw, throwThe,
    MonadExceptOf.throw, hold, hnew, Spot.open?, hlook] at hr
  -- Each refusal on the way is a case that cannot be.
  split at hr
  · cases hr
  split at hr
  · cases hr
  rename_i existing hexisting
  obtain ⟨hsize, hfind⟩ := lookup_eq_ok hexisting
  split at hr
  · cases hr
  rename_i hslash
  have hslash' : slash = false := by simpa [Node.isDirectory] using hslash
  refine ⟨hslash', hsize, ?_⟩
  split at hr
  · cases hr
  split at hr
  · cases hr
  split at hr
  · next hsame =>
    cases hr
    exact .inl ⟨hsame, rfl⟩
  rename_i hne
  split at hr
  · cases hr
  rename_i hreplace
  split at hr
  · cases hr
  split at hr
  · cases hr
  split at hr
  · cases hr
  split at hr
  · cases hr
  cases hr
  refine .inr ⟨hne, ?_, rfl⟩
  rintro ⟨f, hf, hdirectory⟩
  obtain ⟨old, hold', rfl⟩ := Option.map_eq_some_iff.mp hf
  rw [Node.isDirectory_face, mayReplace_file hreplace old (hfind.symm.trans hold')] at hdirectory
  cases hdirectory

/-- A renaming that succeeds gives an entry a name in a directory. -/
theorem rename?_target {front : Place} {a : Text} {slash : Bool} {rights : Rights}
    (hold : h.parent source = .ok ⟨.inTree front, .name a, slash⟩)
    (hr : h.rename? source target rights = .ok h') :
    ∃ goal b slash', h.parent target = .ok ⟨.inTree goal, .name b, slash'⟩ := by
  simp only [rename?, bind, Except.bind, pure, Except.pure, throw, throwThe,
    MonadExceptOf.throw, hold, Spot.open?] at hr
  split at hr
  · cases hr
  rename_i new hnew
  obtain ⟨directory, ending, slash'⟩ := new
  split at hr
  · cases hr
  cases ending with
  | name b =>
    cases directory with
    | inTree goal => exact ⟨goal, b, slash', hnew⟩
    | removed above =>
      simp only at hr
      split at hr
      · cases hr
      split at hr <;> cases hr
  | _ => cases hr

/-- A renaming of a file that succeeds, as it is seen place by place. -/
theorem rename?_ok {rights : Rights} (hs : h.Names source here)
    (hfile : h.root.face? here = some (.file content))
    (hr : h.rename? source target rights = .ok h') :
    ∃ there, h.Names target there ∧
      ((here = there ∧ h' = h) ∨ (here ≠ there ∧ Renamed h h' here there content)) := by
  obtain ⟨front, a, v, hold, hsize, rfl, hfront⟩ := hs.parent
  have hlook : h.lookup front a = .ok (some (.file content)) := lookup_file hsize hfile
  obtain ⟨goal, b, slash, hnew⟩ := rename?_target hold hr
  obtain ⟨rfl, hsize', hcases⟩ := rename?_inTree hold hlook hnew hr
  have hnames : h.Names target (goal ++ [b]) := ⟨goal, b, hnew, hsize', rfl⟩
  refine ⟨goal ++ [b], hnames, hcases.imp_right ?_⟩
  rintro ⟨hne, hplain, rfl⟩
  obtain ⟨_, _, v', hnew', _, _, hgoal⟩ := hnames.parent
  cases hnew.symm.trans hnew'
  exact ⟨hne, renamed_remove_put hfront hgoal hfile hplain hne⟩

/-! ## Ways -/

/-- Every way that is there after a renaming was there before. -/
theorem Renamed.waysIn_symm (hr : Renamed h h' here there content) :
    h'.root.WaysIn h.root := by
  intro q f hf hway
  by_cases hhere : q = here
  · subst hhere
    cases hf.symm.trans hr.gone
  · by_cases hthere : q = there
    · subst hthere
      cases hf.symm.trans hr.put
      cases hway
    · rwa [hr.elsewhere q hhere hthere] at hf

end Host

end FileShell

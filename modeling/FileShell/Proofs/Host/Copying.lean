/-
FileShell.Proofs.Host.Copying — what copying a regular file and removing
it does.

The copy opens its target first and reads its source then, so what is read
depends on where the target's path ends. If that is the source's own
entry, it has been emptied and there is nothing to read; anywhere else the
source still holds all its bytes. Either way the entry is removed
afterwards (`copyThenRemove_opened`), and nothing but the two places is
touched (`Copied`). A copy that fails leaves every entry as it was.
-/
import FileShell.Proofs.Host.Renaming

namespace FileShell

namespace Host

open IoError (Cause)

variable {h h' h₁ : Host} {p source target : Path} {here place : Place} {content : Bytes}

/-- A file was copied to a place and its own entry removed. -/
structure Copied (h h' : Host) (here place : Place) (content : Bytes) : Prop where
  plain : ¬ h.root.IsDirectoryAt place
  room : place ≠ here → h.root.face? place = some (.device .full) → content = []
  put : place ≠ here →
    h'.root.face? place = some (wroteFace .overwrite content (h.root.face? place))
  gone : h'.root.face? here = none
  elsewhere : ∀ q, q ≠ here → q ≠ place → h'.root.face? q = h.root.face? q
  process : h'.process = h.process

/-! ## Removing a file -/

theorem removeFile_file (hn : h.Names p here) (hnul : hasNul p = false)
    (hfile : h.root.face? here = some (.file content)) :
    ∃ h', h.removeFile p = (.ok (), h') ∧ h'.process = h.process ∧
      h'.root.face? here = none ∧ ∀ q, q ≠ here → h'.root.face? q = h.root.face? q := by
  obtain ⟨front, a, v, hparent, hsize, rfl, hfront⟩ := hn.parent
  have hplain : ¬ h.root.IsDirectoryAt (front ++ [a]) := Node.not_isDirectoryAt_some hfile rfl
  obtain ⟨hgone, hothers⟩ := face?_remove hfront hplain
  have hlook : h.lookup front a = .ok (some (.file content)) := lookup_file hsize hfile
  have hremove : h.removeFile? p = .ok (h.remove front a) := by
    rw [removeFile?, hparent]
    simp only [bind, Except.bind, Spot.open?, hlook]
    rfl
  refine ⟨h.remove front a, ?_, rfl, hgone, hothers⟩
  rw [removeFile, hremove]
  simp [guarded, hnul]

/-! ## Copying -/

/-- What the copy of a file does once its target is open: it writes what
the source holds then. -/
theorem copy_opened (hsource : h.Reaches source here)
    (hfile : h.root.face? here = some (.file content)) {file : OpenFile}
    (hopen : h.openForWrite target .overwrite = (.ok file, h₁)) :
    ∃ rest, h₁.root.face? here = some (.file rest) ∧ (file.place ≠ here → rest = content) ∧
      h.copy source target = h₁.writeTo file rest := by
  obtain ⟨_, hopen'⟩ := openForWrite_ok hopen
  obtain ⟨_, _, hopened⟩ := openForWrite?_spec hopen'
  have hrest : ∃ rest, h₁.root.face? here = some (.file rest) ∧
      (file.place ≠ here → rest = content) := by
    by_cases hplace : file.place = here
    · refine ⟨[], ?_, fun hne => absurd hplace hne⟩
      rw [← hplace, hopened.here, hplace, hfile]
      rfl
    · exact ⟨content, (hopened.elsewhere _ (Ne.symm hplace)).trans hfile, fun _ => rfl⟩
  obtain ⟨rest, hface, hcontent⟩ := hrest
  refine ⟨rest, hface, hcontent, ?_⟩
  have hfind : h₁.root.at? (.inTree here) = some (.file rest) := Node.find?_file_iff.mpr hface
  rw [copy, openForRead_all, hsource.locate (Node.find?_file_iff.mpr hfile)]
  simp only [hopen, hfind]

/-- A target that cannot be opened ends the copy before anything is changed. -/
theorem copy_not_opened (hsource : h.Reaches source here)
    (hfile : h.root.face? here = some (.file content)) {e : IoError}
    (hopen : h.openForWrite target .overwrite = (.error e, h)) :
    h.copy source target = (.error e, h) := by
  rw [copy, openForRead_all, hsource.locate (Node.find?_file_iff.mpr hfile)]
  simp only [hopen]

theorem copyThenRemove_of_copy_error {rights : Rights} {e : IoError}
    (hcopy : h.copy source target rights = (.error e, h')) :
    h.copyThenRemove source target rights = (.error e, h') := by
  rw [copyThenRemove, hcopy]

theorem copyThenRemove_refused (hsource : h.Reaches source here)
    (hfile : h.root.face? here = some (.file content)) {e : IoError}
    (hopen : h.openForWrite target .overwrite = (.error e, h)) :
    h.copyThenRemove source target = (.error e, h) :=
  copyThenRemove_of_copy_error (copy_not_opened hsource hfile hopen)

/-- Once the target is open, the copy is written there, or nothing fits
into the target and no entry is changed. -/
theorem copy_cases (hsource : h.Reaches source here)
    (hfile : h.root.face? here = some (.file content)) {file : OpenFile}
    (hopen : h.openForWrite target .overwrite = (.ok file, h₁)) :
    (∃ h₂ rest, h.copy source target = (.ok (), h₂) ∧ (file.place ≠ here → rest = content) ∧
      (h.root.face? file.place = some (.device .full) → rest = []) ∧
      h.ChangedAt h₂ file.place (wroteFace .overwrite rest (h.root.face? file.place))) ∨
    (h.root.face? file.place = some (.device .full) ∧
      ∃ e h₂, h.copy source target = (.error e, h₂) ∧ h₂.process = h.process ∧
        ∀ q, h₂.root.face? q = h.root.face? q) := by
  obtain ⟨_, hopen'⟩ := openForWrite_ok hopen
  obtain ⟨_, _, hopened⟩ := openForWrite?_spec hopen'
  obtain ⟨rest, _, hcontent, hcopy⟩ := copy_opened hsource hfile hopen
  rw [hcopy]
  rcases hwrite : h₁.writeTo file rest with ⟨e | _, h₂⟩
  · obtain ⟨rfl, hfull, _⟩ := writeTo_error hwrite
    have hdevice : h.root.face? file.place = some (.device .full) := by
      rw [hopened.here] at hfull
      exact openedFace_eq_device (Option.some.inj hfull)
    refine .inr ⟨hdevice, e, h₂, rfl, hopened.process, fun q => ?_⟩
    by_cases hq : q = file.place
    · rw [hq, hfull, hdevice]
    · exact hopened.elsewhere q hq
  · obtain ⟨hwritten, hroom⟩ := writeTo_ok hopened.here hwrite
    refine .inl ⟨h₂, rest, rfl, hcontent, fun hfull => hroom ?_, hopened.trans hwritten⟩
    rw [hfull]
    rfl

/-- After the copy of a file its path still names it, and it is a file,
though an empty one if it was copied onto itself. -/
theorem source_of_copied {rest : Bytes} (hs : h.Names source here)
    (hfile : h.root.face? here = some (.file content))
    (hc : h.ChangedAt h' place (wroteFace .overwrite rest (h.root.face? place))) :
    h'.Names source here ∧ ∃ left, h'.root.face? here = some (.file left) := by
  refine ⟨hs.transfer hc.waysIn_wrote (origin_congr hc.process _), ?_⟩
  by_cases hplace : here = place
  · subst hplace
    rw [hc.here, hfile]
    exact ⟨_, rfl⟩
  · exact ⟨content, (hc.elsewhere _ hplace).trans hfile⟩

/-- Once the target is open, the copy succeeds and the source is removed,
or nothing fits into the target and nothing is changed. -/
theorem copyThenRemove_opened (hs : h.Names source here) (hnul : hasNul source = false)
    (hfile : h.root.face? here = some (.file content)) {file : OpenFile}
    (hopen : h.openForWrite target .overwrite = (.ok file, h₁)) :
    (∃ h', h.copyThenRemove source target = (.ok (), h') ∧
      Copied h h' here file.place content) ∨
    (h.root.face? file.place = some (.device .full) ∧
      ∃ e h', h.copyThenRemove source target = (.error e, h') ∧ h'.process = h.process ∧
        ∀ q, h'.root.face? q = h.root.face? q) := by
  obtain ⟨_, hopen'⟩ := openForWrite_ok hopen
  obtain ⟨_, hplain, _⟩ := openForWrite?_spec hopen'
  rcases copy_cases (hs.reaches hnul hfile fun _ => nofun) hfile hopen with
    ⟨h₂, rest, hcopy, hcontent, hroom, hc⟩ | ⟨hfull, e, h₂, hcopy, hsame⟩
  · obtain ⟨hs₂, left, hfile₂⟩ := source_of_copied hs hfile hc
    obtain ⟨h₃, hremove, hprocess, hgone, hothers⟩ := removeFile_file hs₂ hnul hfile₂
    refine .inl ⟨h₃, ?_, ⟨hplain, fun hne hfull => ?_, fun hne => ?_, hgone, ?_, ?_⟩⟩
    · rw [copyThenRemove, hcopy]
      exact hremove
    · rw [← hcontent hne]
      exact hroom hfull
    · rw [hothers _ hne, hc.here, hcontent hne]
    · exact fun q hq hq' => (hothers q hq).trans (hc.elsewhere q hq')
    · exact hprocess.trans hc.process
  · exact .inr ⟨hfull, e, h₂, copyThenRemove_of_copy_error hcopy, hsame⟩

/-! ## Ways -/

section

variable (hc : Copied h h' here place content)
  (hfile : h.root.face? here = some (.file content))
include hc hfile

/-- A copy leaves the ways of the machine as they are. -/
theorem Copied.waysIn : h.root.WaysIn h'.root := by
  intro q f hf hway
  have hhere : q ≠ here := by
    rintro rfl
    cases hf.symm.trans hfile
    cases hway
  by_cases hplace : q = place
  · subst hplace
    rw [hc.put hhere, hf, wroteFace_of_isWay hway]
  · rw [hc.elsewhere q hhere hplace, hf]

theorem Copied.waysIn_symm : h'.root.WaysIn h.root := by
  intro q f hf hway
  have hhere : q ≠ here := by
    rintro rfl
    cases hf.symm.trans hc.gone
  by_cases hplace : q = place
  · subst hplace
    cases hf.symm.trans (hc.put hhere)
    exact wroteFace_isWay hway
  · rwa [hc.elsewhere q hhere hplace] at hf

end

end Host

end FileShell

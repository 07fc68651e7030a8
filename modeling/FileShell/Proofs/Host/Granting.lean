/-
FileShell.Proofs.Host.Granting — what rights add to an operation.

Rights are asked for when the tree has nothing against an operation, so
any call but a move comes out as it does with every right, or nothing is
changed (`answer_rights`). For reading, opening for writing
and removing a file that is said exactly: which right is asked for, and of
which place.

A copy asks to read the source and to write or make the target, and is the
copy of a process with every right if both are granted (`copy_granted`).
Where no device is in the way a copy that fails has changed nothing, for
want of a right or for another reason (`copy_refused`). The removal behind
it asks for a right of its own: `copyThenRemove_granted` says what comes of
it, and `copyThenRemove_left` what is left behind if it is refused.
-/
import FileShell.Host.FileSystem
import FileShell.Proofs.Host.Copying

namespace FileShell

namespace Host

open IoError (Cause)

variable {h h' h₁ : Host} {rights : Rights} {p source target : Path} {here place : Place}
  {content : Bytes} {mode : WriteMode}

/-! ## Reading, writing, removing -/

/-- Reading asks for the right to read. -/
theorem openForRead_rights (hp : h.Reaches p place) {node : Node}
    (hnode : h.root.find? place = some node) :
    h.openForRead p rights =
      match rights.grant .read place with
      | .ok () => .ok (.inTree place, node)
      | .error c => .error (.system c) := by
  rw [openForRead, hp.locate hnode]
  rfl

/-- The right that writing to a place asks for. -/
def rightToWrite (h : Host) (place : Place) : Right :=
  if (h.root.face? place).isSome then .write else .make

theorem rightToWrite_of_some {f : Face} (hf : h.root.face? place = some f) :
    h.rightToWrite place = .write := by
  rw [rightToWrite, hf]
  rfl

theorem rightToWrite_of_none (hnone : h.root.face? place = none) :
    h.rightToWrite place = .make := by
  rw [rightToWrite, hnone]
  rfl

/-- Opening for writing asks for the right to write what is there, or to
make it. -/
theorem openForWrite_rights (h : Host) (p : Path) (mode : WriteMode) (rights : Rights) :
    h.openForWrite p mode rights =
      match h.openForWrite p mode with
      | (.error e, h') => (.error e, h')
      | (.ok file, h') =>
        match rights.grant (h.rightToWrite file.place) file.place with
        | .ok () => (.ok file, h')
        | .error c => (.error (.system c), h) := by
  rw [openForWrite, openForWrite]
  split
  · rfl
  rw [openForWrite?, openForWrite?]
  cases hwalk : h.walk true p with
  | error e => rfl
  | ok x =>
    cases x with
    | vacant directory n =>
      obtain ⟨_, _, hleads⟩ := walk_eq_ok_iff.mp (walk_of_making hwalk)
      have hright := rightToWrite_of_none hleads.vacant.2
      simp only [bind, Except.bind, pure, Except.pure, Rights.grant_all, hright]
      cases rights.grant .make (directory ++ [n]) <;> rfl
    | entry spot =>
      cases spot with
      | removed above => rfl
      | inTree place =>
        simp only [bind, Except.bind, pure, Except.pure, Rights.grant_all]
        cases hnode : h.root.find? place with
        | none => rfl
        | some node =>
          have hright := rightToWrite_of_some (Node.face?_of_find? hnode)
          cases node with
          | directory v es => rfl
          | file old =>
            cases mode <;> simp only [hright] <;> cases rights.grant .write place <;> rfl
          | _ =>
            simp only [hright]
            cases rights.grant .write place <;> rfl

/-- Removing a file asks for the right to remove it. -/
theorem removeFile_rights (hn : h.Names p here) (hnul : hasNul p = false)
    (hfile : h.root.face? here = some (.file content)) :
    h.removeFile p rights =
      match rights.grant .remove here with
      | .ok () => h.removeFile p
      | .error c => (.error (.system c), h) := by
  obtain ⟨front, a, v, hparent, hsize, rfl, hfront⟩ := hn.parent
  have hlook : h.lookup front a = .ok (some (.file content)) := lookup_file hsize hfile
  have hremove (rights : Rights) : h.removeFile? p rights =
      rights.grant .remove (front ++ [a]) >>= fun _ => .ok (h.remove front a) := by
    rw [removeFile?, hparent]
    simp only [bind, Except.bind, Spot.open?, hlook]
    rfl
  rw [removeFile, removeFile, hremove, hremove]
  simp only [guarded, hnul]
  cases rights.grant .remove (front ++ [a]) <;> rfl

/-! ## Every call -/

/-- An attempt comes out as another one does, or it is refused. -/
def MayRefuse {α : Type} (x y : Except Cause α) : Prop := x = y ∨ ∃ c, x = .error c

section

variable {α β : Type}

theorem MayRefuse.refl (x : Except Cause α) : MayRefuse x x := .inl rfl

theorem MayRefuse.bind (x : Except Cause α) {f g : α → Except Cause β}
    (hrest : ∀ a, MayRefuse (f a) (g a)) : MayRefuse (x >>= f) (x >>= g) := by
  cases x with
  | error c => exact .refl _
  | ok a => exact hrest a

theorem MayRefuse.ask (right : Right) (place : Place) {x y : Except Cause α}
    (hrest : MayRefuse x y) :
    MayRefuse (rights.grant right place >>= fun _ => x)
      (Rights.all.grant right place >>= fun _ => y) := by
  cases hask : rights.grant right place with
  | error c => exact .inr ⟨c, rfl⟩
  | ok _ => exact hrest

end

theorem createDirectory?_rights :
    MayRefuse (h.createDirectory? p rights) (h.createDirectory? p) := by
  refine .bind _ fun s => ?_
  split
  · refine .bind _ fun directory => .bind _ fun existing => ?_
    cases existing with
    | some _ => exact .refl _
    | none => exact .ask _ _ (.refl _)
  · exact .refl _

theorem createFile?_rights : MayRefuse (h.createFile? p rights) (h.createFile? p) := by
  refine .bind _ fun s => ?_
  split
  · split
    · exact .refl _
    · refine .bind _ fun directory => .bind _ fun existing => ?_
      cases existing with
      | some _ => exact .refl _
      | none => exact .ask _ _ (.refl _)
  · exact .refl _

theorem removeDirectory?_rights :
    MayRefuse (h.removeDirectory? p rights) (h.removeDirectory? p) := by
  refine .bind _ fun s => ?_
  split
  · refine .bind _ fun directory => .bind _ fun existing => ?_
    split
    · exact .refl _
    · split
      · exact .refl _
      · split
        · exact .refl _
        · exact .ask _ _ (.refl _)
    · exact .refl _
  all_goals exact .refl _

theorem removeFile?_rights : MayRefuse (h.removeFile? p rights) (h.removeFile? p) := by
  refine .bind _ fun s => ?_
  split
  · refine .bind _ fun directory => .bind _ fun existing => ?_
    split
    · exact .refl _
    · exact .refl _
    · split
      · exact .refl _
      · exact .ask _ _ (.refl _)
  · exact .refl _

theorem guarded_rights {x y : Except Cause Host} (hxy : MayRefuse x y) :
    h.guarded p x = h.guarded p y ∨ (h.guarded p x).2 = h := by
  obtain rfl | ⟨c, rfl⟩ := hxy
  · exact .inl rfl
  · right
    rw [guarded]
    split <;> rfl

/-- Rights only refuse: any call but a move is answered as it is with every
right, or it changes nothing. -/
theorem answer_rights (call : Files.Call) (h : Host) (rights : Rights)
    (hmove : ∀ source target, call ≠ .move source target) :
    answer call h rights = answer call h ∨ (answer call h rights).2 = h := by
  cases call with
  | createDirectory p => exact guarded_rights createDirectory?_rights
  | removeDirectory p => exact guarded_rights removeDirectory?_rights
  | removeFile p => exact guarded_rights removeFile?_rights
  | createFile p => exact guarded_rights createFile?_rights
  | move source target => exact absurd rfl (hmove source target)
  | write p mode content =>
    rw [answer, answer, write, write, openForWrite_rights h p mode rights]
    rcases h.openForWrite p mode with ⟨e | file, h₁⟩
    · exact .inl rfl
    · cases hgrant : rights.grant (h.rightToWrite file.place) file.place with
      | error c => exact .inr (by simp only [hgrant])
      | ok _ => exact .inl (by simp only [hgrant])
  | _ => exact .inr rfl

/-! ## Copying -/

section

variable (hsource : h.Reaches source here) (hfile : h.root.face? here = some (.file content))
include hsource hfile

/-- A copy that is granted the rights it asks for is the copy of a process
with every right. -/
theorem copy_granted {file : OpenFile}
    (hopen : h.openForWrite target .overwrite = (.ok file, h₁))
    (hread : rights.grant .read here = .ok ())
    (hwrite : rights.grant (h.rightToWrite file.place) file.place = .ok ()) :
    h.copy source target rights = h.copy source target := by
  have hnode := Node.find?_file_iff.mpr hfile
  rw [copy, copy, openForRead_rights hsource hnode, openForRead_rights hsource hnode,
    openForWrite_rights h target .overwrite rights, hopen]
  simp only [hread, hwrite, Rights.grant_all]

/-- A copy is the copy of a process with every right, or it is refused and
nothing is changed. -/
theorem copy_rights (target : Path) (rights : Rights) :
    h.copy source target rights = h.copy source target ∨
      ∃ c, h.copy source target rights = (.error (.system c), h) := by
  have hnode := Node.find?_file_iff.mpr hfile
  rw [copy, copy, openForRead_rights hsource hnode, openForRead_rights hsource hnode,
    openForWrite_rights h target .overwrite rights]
  cases hread : rights.grant .read here with
  | error c => exact .inr ⟨c, rfl⟩
  | ok _ =>
    rcases h.openForWrite target .overwrite with ⟨e | file, h₁⟩
    · exact .inl rfl
    · cases hwrite : rights.grant (h.rightToWrite file.place) file.place with
      | error c => exact .inr ⟨c, by simp only [hwrite]⟩
      | ok _ => exact .inl (by simp only [hwrite, Rights.grant_all])

/-- A copy that fails has changed nothing, unless a full device is at its
target. -/
theorem copy_refused
    (hroom : ∀ file h₁, h.openForWrite target .overwrite = (.ok file, h₁) →
      h.root.face? file.place ≠ some (.device .full))
    {e : IoError} (he : (h.copy source target rights).1 = .error e) :
    h.copy source target rights = (.error e, h) := by
  rcases copy_rights hsource hfile target rights with hsame | ⟨c, hrefused⟩
  · rw [hsame] at he ⊢
    rcases hopen : h.openForWrite target .overwrite with ⟨e' | file, h₁⟩
    · obtain rfl := openForWrite_error hopen
      rw [copy_not_opened hsource hfile hopen] at he ⊢
      cases he
      rfl
    · rcases copy_cases hsource hfile hopen with ⟨h₂, _, hcopy, -⟩ | ⟨hfull, -⟩
      · rw [hcopy] at he
        cases he
      · exact absurd hfull (hroom file h₁ hopen)
  · rw [hrefused] at he ⊢
    cases he
    rfl

/-- A copy that succeeds has written the source's bytes where its target
was opened. -/
theorem copy_ok (hok : (h.copy source target rights).1 = .ok ()) :
    ∃ file h₁ h₂ rest, h.openForWrite target .overwrite = (.ok file, h₁) ∧
      h.copy source target rights = (.ok (), h₂) ∧ (file.place ≠ here → rest = content) ∧
      h.ChangedAt h₂ file.place (wroteFace .overwrite rest (h.root.face? file.place)) := by
  rcases copy_rights hsource hfile target rights with hsame | ⟨c, hrefused⟩
  · rw [hsame] at hok ⊢
    rcases hopen : h.openForWrite target .overwrite with ⟨e | file, h₁⟩
    · obtain rfl := openForWrite_error hopen
      rw [copy_not_opened hsource hfile hopen] at hok
      cases hok
    · rcases copy_cases hsource hfile hopen with
        ⟨h₂, rest, hcopy, hcontent, -, hc⟩ | ⟨-, e, h₂, hcopy, -⟩
      · exact ⟨file, h₁, h₂, rest, rfl, hcopy, hcontent, hc⟩
      · rw [hcopy] at hok
        cases hok
  · rw [hrefused] at hok
    cases hok

end

/-! ## Copying and removing -/

section

variable (hs : h.Names source here) (hnul : hasNul source = false)
  (hfile : h.root.face? here = some (.file content))
include hs hnul hfile

/-- Copying and removing go as they do with every right if each is granted
what it asks for. -/
theorem copyThenRemove_granted {file : OpenFile}
    (hopen : h.openForWrite target .overwrite = (.ok file, h₁))
    (hread : rights.grant .read here = .ok ())
    (hwrite : rights.grant (h.rightToWrite file.place) file.place = .ok ())
    (hremove : rights.grant .remove here = .ok ()) :
    h.copyThenRemove source target rights = h.copyThenRemove source target := by
  have hreach : h.Reaches source here := hs.reaches hnul hfile fun _ => nofun
  have hgranted := copy_granted hreach hfile hopen hread hwrite
  rw [copyThenRemove, copyThenRemove, hgranted]
  rcases copy_cases hreach hfile hopen with ⟨h₂, rest, hcopy, -, -, hc⟩ | ⟨-, e, h₂, hcopy, -⟩
  · obtain ⟨hs₂, left, hfile₂⟩ := source_of_copied hs hfile hc
    have hremoved : h₂.removeFile source rights = h₂.removeFile source := by
      rw [removeFile_rights hs₂ hnul hfile₂, hremove]
    simp only [hcopy, hremoved]
  · simp only [hcopy]

/-- Where only the removal is refused, the copy that was made stays, and
the file is still where it was. -/
theorem copyThenRemove_left (hcopied : (h.copy source target rights).1 = .ok ()) {c : Cause}
    (hremove : rights.grant .remove here = .error c) :
    ∃ file h₁ h₂ rest, h.openForWrite target .overwrite = (.ok file, h₁) ∧
      h.copyThenRemove source target rights = (.error (.system c), h₂) ∧
      (file.place ≠ here → rest = content) ∧
      h.ChangedAt h₂ file.place (wroteFace .overwrite rest (h.root.face? file.place)) := by
  obtain ⟨file, h₁, h₂, rest, hopen, hcopy, hcontent, hc⟩ :=
    copy_ok (hs.reaches hnul hfile fun _ => nofun) hfile hcopied
  obtain ⟨hs₂, left, hfile₂⟩ := source_of_copied hs hfile hc
  refine ⟨file, h₁, h₂, rest, hopen, ?_, hcontent, hc⟩
  simp only [copyThenRemove, hcopy, removeFile_rights hs₂ hnul hfile₂, hremove]

end

/-! ## Moving -/

/-- The right that giving a place to another entry asks for. -/
def rightToReplace (h : Host) (place : Place) : Right :=
  if (h.root.face? place).isSome then .remove else .make

/-- The rights that moving a file takes, whichever way it is done: a copy
reads the file and writes the target, a renaming gives the target's place to
another entry, and both take the file away from where it is. -/
structure Rights.Grants (rights : Rights) (h : Host) (here : Place) (target : Path) : Prop where
  read : rights.grant .read here = .ok ()
  remove : rights.grant .remove here = .ok ()
  write : ∀ there, h.Names target there → rights.grant (h.rightToWrite there) there = .ok ()
  replace : ∀ there, h.Names target there → rights.grant (h.rightToReplace there) there = .ok ()

end Host

end FileShell

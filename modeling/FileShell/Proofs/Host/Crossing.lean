/-
FileShell.Proofs.Host.Crossing — a move across volumes does what a renaming
on one volume would do, for a process with the rights.

Across volumes a regular file is copied and then removed. The copy has a
way to fail of its own, and so has the renaming, with other causes: the
one opens its target for writing and follows its path to the end, the
other looks at the last name only. Where the rights are granted that either
takes (`Rights.Grants`), both turn on one question, whether the target names
a place in some directory where no directory is (`RoomFor`).

* On one volume a renaming of a file succeeds exactly if there is room
  (`rename_of_room`, `rename_of_no_room`).
* A target that is no link and no device is opened exactly if there is
  room, and then at the place that it names (`openForWrite_of_room`,
  `openForWrite_of_no_room`). That it is no link is needed: the walk goes
  on behind a link, the renaming replaces it.

What the two leave is told place by place, by `Renamed` and by `Copied`,
and is the same tree.

A renaming that is refused changes nothing. A copy that is refused changes
nothing either, but a removal that is refused comes too late: the copy is
made (`copyThenRemove_of_kept`). So without the rights the two may differ
(`move_across_without_rights`).
-/
import FileShell.Proofs.Host.Granting
import FileShell.Proofs.Host.Moving
import FileShell.Proofs.Host.Volumes

namespace FileShell

namespace Host

open IoError (Cause)

variable {h h' : Host} {rights : Rights} {source target : Path} {here there : Place}
  {content : Bytes}

/-- A path names a place in a directory, and no directory is there. -/
def RoomFor (h : Host) (target : Path) : Prop :=
  hasNul target = false ∧ ∃ there, h.Names target there ∧ ¬ h.root.IsDirectoryAt there

/-- Whatever a path names is a directory or a regular file. -/
def NamesPlain (h : Host) (target : Path) : Prop :=
  ∀ there f, h.Names target there → h.root.face? there = some f →
    f.isDirectory = true ∨ ∃ bytes, f = .file bytes

/-! ## Renaming on one volume -/

/-- What is no directory is neither a directory's place nor above one. -/
theorem isWithin_eq_false {outer place : Place} {v : Nat}
    (hplace : h.root.face? place = some (.directory v)) (hplain : ¬ h.root.IsDirectoryAt outer) :
    isWithin outer place = false := by
  refine Bool.eq_false_iff.mpr fun hwithin => ?_
  have hprefix : outer <+: place := by simpa [isWithin] using hwithin
  by_cases hsame : place = outer
  · exact hplain ⟨_, hsame ▸ hplace, rfl⟩
  · obtain ⟨name, rest, rfl⟩ := Node.exists_below_of_prefix hprefix hsame
    rw [Node.face?_below hplain] at hplace
    cases hplace

/-- A file is given any name of a directory on the same volume, unless a
directory has it. -/
theorem exists_rename? {front goal : Place} {a b : Text} {v : Nat}
    (hold : h.parent source = .ok ⟨.inTree front, .name a, false⟩)
    (hnew : h.parent target = .ok ⟨.inTree goal, .name b, false⟩)
    (hsize : ¬ nameLimit < Utf8.size a) (hsize' : ¬ nameLimit < Utf8.size b)
    (hfront : h.root.face? front = some (.directory v))
    (hgoal : h.root.face? goal = some (.directory v))
    (hfile : h.root.face? (front ++ [a]) = some (.file content))
    (hplain : ¬ h.root.IsDirectoryAt (goal ++ [b]))
    (hgrant : front ++ [a] ≠ goal ++ [b] → rights.grant .remove (front ++ [a]) = .ok () ∧
      rights.grant (h.rightToReplace (goal ++ [b])) (goal ++ [b]) = .ok ()) :
    ∃ h', h.rename? source target rights = .ok h' := by
  have hvolumes : h.root.volumeOf (.inTree front) = h.root.volumeOf (.inTree goal) :=
    (Node.volumeAt_eq_some_iff.mpr hfront).trans (Node.volumeAt_eq_some_iff.mpr hgoal).symm
  have hlook : h.lookup front a = .ok (some (.file content)) := lookup_file hsize hfile
  have hlook' : h.lookup goal b = .ok (h.root.find? (goal ++ [b])) := by
    rw [lookup, if_neg hsize']
  have hwithin : isWithin (front ++ [a]) goal = false :=
    isWithin_eq_false hgoal (Node.not_isDirectoryAt_some hfile rfl)
  have hwithin' : isWithin (goal ++ [b]) front = false := isWithin_eq_false hfront hplain
  simp only [rename?, bind, Except.bind, pure, Except.pure, throw, throwThe, MonadExceptOf.throw,
    hold, hnew, hvolumes, ne_eq, not_true, if_false, Spot.open?, hlook, hlook', Bool.or_self,
    Bool.and_false, hwithin, hwithin', Bool.false_eq_true]
  split
  · exact ⟨_, rfl⟩
  · next hne =>
    -- What is at the goal is no directory, so nothing is left to refuse.
    obtain ⟨hremove, hreplace⟩ := hgrant hne
    rw [rightToReplace, Node.face?, Option.isSome_map] at hreplace
    rw [hremove, hreplace]
    cases hfind : h.root.find? (goal ++ [b]) with
    | none => exact ⟨_, rfl⟩
    | some old =>
      cases old with
      | directory u es => exact absurd ⟨_, Node.face?_of_find? hfind, rfl⟩ hplain
      | _ => exact ⟨_, rfl⟩

section

variable (hs : h.Names source here) (hfile : h.root.face? here = some (.file content))
include hs hfile

/-- Two names of one file are on one volume. -/
theorem not_names_of_crossing
    (hr : (h.rename source target rights).1 = .error (.system .crossesDevices)) :
    ¬ h.Names target here := by
  intro hn
  obtain ⟨front, a, v, hold, hsize, rfl, hfront⟩ := hs.parent
  obtain ⟨goal, b, _, hnew, _, hplace, _⟩ := hn.parent
  obtain ⟨rfl, ⟨⟩⟩ := List.append_inj' hplace rfl
  obtain ⟨h', hok⟩ := exists_rename? hold hnew hsize hsize hfront hfront hfile
    (Node.not_isDirectoryAt_some hfile rfl) fun hne => absurd rfl hne
  rw [rename] at hr
  split at hr
  · cases hr
  · rw [hok] at hr
    cases hr

/-- On one volume a file is renamed wherever there is room for it, by a
process with the rights. -/
theorem rename_of_room (hnul : hasNul source = false) {v : Nat}
    (hvolume : ∀ here u, h.root.volumeOf here = some u → u = v)
    (hgrants : rights.Grants h here target) (hroom : h.RoomFor target) :
    ∃ h' there, h.rename source target rights = (.ok (), h') ∧ h.Names target there ∧
      ((here = there ∧ h' = h) ∨ (here ≠ there ∧ Renamed h h' here there content)) := by
  obtain ⟨hnul', _, hn, hplain⟩ := hroom
  obtain ⟨front, a, u, hold, hsize, rfl, hfront⟩ := hs.parent
  obtain ⟨goal, b, u', hnew, hsize', rfl, hgoal⟩ := hn.parent
  obtain rfl := hvolume (.inTree front) u (Node.volumeAt_eq_some_iff.mpr hfront)
  obtain rfl := hvolume (.inTree goal) u' (Node.volumeAt_eq_some_iff.mpr hgoal)
  obtain ⟨h', hok⟩ := exists_rename? hold hnew hsize hsize' hfront hgoal hfile hplain fun _ =>
    ⟨hgrants.remove, hgrants.replace _ hn⟩
  obtain ⟨there, hnames, hcases⟩ := rename?_ok hs hfile hok
  refine ⟨h', there, ?_, hnames, hcases⟩
  rw [rename, hok]
  simp [hnul, hnul']

/-- Where there is no room, a file is not renamed, and nothing is changed. -/
theorem rename_of_no_room (hroom : ¬ h.RoomFor target) :
    ∃ e, h.rename source target rights = (.error e, h) := by
  rcases rename_cases h source target rights with ⟨h', -, hok, hnul'⟩ | ⟨e, hr, -⟩
  · obtain ⟨there, hn, hcases⟩ := rename?_ok hs hfile hok
    refine absurd ⟨hnul', there, hn, ?_⟩ hroom
    rcases hcases with ⟨rfl, _⟩ | ⟨_, hren⟩
    · exact Node.not_isDirectoryAt_some hfile rfl
    · exact hren.replaced
  · exact ⟨e, hr⟩

end

/-! ## Opening the target -/

/-- Only a name leads to anything but a directory. -/
theorem Leads.exists_name {root : Node} {links : Nat} {spot : Spot} {ss : List Step} {x : Found}
    (hleads : Leads root links spot ss x) (hss : ss ≠ []) {place : Place}
    (hx : x.spot = .inTree place) (hplain : ¬ root.IsDirectoryAt place) :
    ∃ front n, ss = front ++ [.name n] := by
  obtain ⟨front, last, rfl⟩ := (List.eq_nil_or_concat ss).resolve_left hss
  rw [List.concat_eq_append] at hleads ⊢
  obtain ⟨spot', _, left, -, -, hlast⟩ := hleads.cut (by simp)
  have hstands : ¬ root.StandsAt x.spot := by
    rw [hx]
    intro hd
    obtain ⟨v, hv⟩ := Node.standsAt_inTree.mp hd
    exact hplain ⟨_, hv, rfl⟩
  cases hlast with
  | missing => exact ⟨front, _, rfl⟩
  | enter => exact ⟨front, _, rfl⟩
  | detour => exact ⟨front, _, rfl⟩
  | stay _ hd hend =>
    cases hend
    exact absurd hd hstands
  | up hd hend =>
    obtain rfl := hend.of_nil
    exact absurd hd.up hstands

/-- A walk that does not end at a directory ends at what its path names,
or that is a link. -/
theorem exists_names_of_walk (hroot : h.root.StandsAt (.inTree [])) {p : Path} {x : Found}
    {place : Place} (hw : h.walk false p = .ok x) (hx : x.spot = .inTree place)
    (hplain : ¬ h.root.IsDirectoryAt place) :
    ∃ there, h.Names p there ∧
      (there = place ∨ ∃ link, h.root.face? there = some (.link link)) := by
  obtain ⟨start, hstart, hleads⟩ := walk_eq_ok_iff.mp hw
  have hsteps : steps p ≠ [] := by
    intro hnil
    rw [hnil] at hleads
    cases hleads
    obtain ⟨htext, _, rfl⟩ := origin_eq_ok hstart
    cases habsolute : p.isAbsolute with
    | false => exact steps_ne_nil htext habsolute hnil
    | true =>
      rw [habsolute, if_pos rfl] at hx
      cases hx
      obtain ⟨v, hv⟩ := Node.standsAt_inTree.mp hroot
      exact hplain ⟨_, hv, rfl⟩
  obtain ⟨front, n, hcut⟩ := hleads.exists_name hsteps hx hplain
  rw [hcut] at hleads
  obtain ⟨_, left, hfront, hname⟩ := hleads.split
  obtain ⟨directory, rfl, hsize⟩ := hname.of_name
  refine ⟨directory ++ [n], ⟨directory, n,
    parent_eq_ok_iff.mpr ⟨start, front, hstart, hcut, hfront⟩, hsize, rfl⟩, ?_⟩
  cases hname with
  | missing =>
    cases hx
    exact .inl rfl
  | enter _ _ _ _ hend =>
    cases hend
    cases hx
    exact .inl rfl
  | detour _ _ hface => exact .inr ⟨_, hface⟩
  | stay hstep => rcases hstep with hstep | hstep <;> cases hstep

/-- Where there is room, a target that is no link is opened at the place
that it names. -/
theorem openForWrite_of_room (hn : h.Names target there) (hnul : hasNul target = false)
    (hplain : ¬ h.root.IsDirectoryAt there)
    (hlink : ∀ link, h.root.face? there ≠ some (.link link)) :
    ∃ h₁, h.openForWrite target .overwrite = (.ok ⟨there⟩, h₁) := by
  cases hface : h.root.face? there with
  | some f =>
    have hreach : h.Reaches target there :=
      hn.reaches hnul hface fun link he => hlink link (he ▸ hface)
    have hf : f.isDirectory = false := by
      simpa [Node.IsDirectoryAt, hface] using hplain
    exact exists_openForWrite hreach hface hf .overwrite
  | none =>
    obtain ⟨directory, n, hwalk⟩ := hn.walk_vacant hface
    have hmaking : h.walk true target = .ok (.vacant directory n) :=
      walk_making hwalk (by rintro _ ⟨⟩)
    have hopen : h.openForWrite? target .overwrite =
        .ok (⟨directory ++ [n]⟩, h.put directory n (.file [])) := by
      rw [openForWrite?, hmaking]
      rfl
    obtain ⟨there', hn', hcases⟩ := exists_names_of_walk hn.standsAt_root hwalk rfl <| by
      obtain ⟨_, _, hleads⟩ := walk_eq_ok_iff.mp hwalk
      exact Node.not_isDirectoryAt_none hleads.vacant.2
    obtain rfl := hn'.unique hn
    rcases hcases with rfl | ⟨link, hl⟩
    · exact ⟨h.put directory n (.file []), by simp [openForWrite, hnul, hopen]⟩
    · exact absurd hl (hlink link)

theorem NamesPlain.not_link (htarget : h.NamesPlain target) {link : Path}
    (hn : h.Names target there) : h.root.face? there ≠ some (.link link) := by
  intro hl
  rcases htarget there _ hn hl with hdirectory | ⟨_, hf⟩
  · cases hdirectory
  · cases hf

/-- A target that names nothing, a file or a directory is opened at the
place that it names, and nothing or a file is there. -/
theorem NamesPlain.of_opened (htarget : h.NamesPlain target) (hroot : h.root.StandsAt (.inTree []))
    {file : OpenFile} (hopen : h.openForWrite target .overwrite = (.ok file, h')) :
    h.Names target file.place ∧
      ∀ f, h.root.face? file.place = some f → ∃ bytes, f = .file bytes := by
  obtain ⟨_, hopen'⟩ := openForWrite_ok hopen
  obtain ⟨⟨x, hwalk, hx⟩, hplain, -⟩ := openForWrite?_spec hopen'
  obtain ⟨there, hn, hcases⟩ := exists_names_of_walk hroot (walk_of_making hwalk) hx hplain
  rcases hcases with rfl | ⟨link, hl⟩
  · refine ⟨hn, fun f hf => (htarget _ f hn hf).resolve_left fun hdirectory => ?_⟩
    exact hplain ⟨f, hf, hdirectory⟩
  · exact absurd hl (htarget.not_link hn)

/-- Where there is no room, such a target is not opened. -/
theorem openForWrite_of_no_room (hroot : h.root.StandsAt (.inTree []))
    (htarget : h.NamesPlain target) (hroom : ¬ h.RoomFor target) :
    ∃ e, h.openForWrite target .overwrite = (.error e, h) := by
  rcases hopen : h.openForWrite target .overwrite with ⟨e | file, h₁⟩
  · rw [openForWrite_error hopen]
    exact ⟨e, rfl⟩
  · obtain ⟨hnul, hopen'⟩ := openForWrite_ok hopen
    obtain ⟨_, hplain, -⟩ := openForWrite?_spec hopen'
    exact absurd ⟨hnul, _, (htarget.of_opened hroot hopen).1, hplain⟩ hroom

/-- Nothing or a file becomes a file with what is written. -/
theorem wroteFace_of_file {o : Option Face} (hold : ∀ f, o = some f → ∃ bytes, f = .file bytes) :
    wroteFace .overwrite content o = .file content := by
  cases o with
  | none => rfl
  | some f =>
    obtain ⟨bytes, rfl⟩ := hold f rfl
    rfl

/-! ## The copy and the renaming side by side -/

section

variable (hs : h.Names source here) (hnul : hasNul source = false)
  (hfile : h.root.face? here = some (.file content)) (htarget : h.NamesPlain target)
include hs hnul hfile htarget

/-- Where there is room, the file is copied there and removed, by a process
with the rights. -/
theorem copyThenRemove_of_room (hgrants : rights.Grants h here target)
    (hroom : h.RoomFor target) :
    ∃ h' there, h.copyThenRemove source target rights = (.ok (), h') ∧ h.Names target there ∧
      Copied h h' here there content ∧
      wroteFace .overwrite content (h.root.face? there) = .file content := by
  obtain ⟨hnul', there, hn, hplain⟩ := hroom
  obtain ⟨h₁, hopen⟩ := openForWrite_of_room hn hnul' hplain fun _ => htarget.not_link hn
  obtain ⟨-, hold⟩ := htarget.of_opened hs.standsAt_root hopen
  rw [copyThenRemove_granted hs hnul hfile hopen hgrants.read (hgrants.write _ hn) hgrants.remove]
  rcases copyThenRemove_opened hs hnul hfile hopen with ⟨h', hcopy, hc⟩ | ⟨hfull, _⟩
  · exact ⟨h', there, hcopy, hn, hc, wroteFace_of_file hold⟩
  · obtain ⟨_, hf⟩ := hold _ hfull
    cases hf

/-- Where there is no room, nothing is copied or removed. -/
theorem copyThenRemove_of_no_room (hroom : ¬ h.RoomFor target) :
    ∃ e, h.copyThenRemove source target rights = (.error e, h) := by
  obtain ⟨e, hopen⟩ := openForWrite_of_no_room hs.standsAt_root htarget hroom
  have hreach : h.Reaches source here := hs.reaches hnul hfile fun _ => nofun
  rcases copy_rights hreach hfile target rights with hsame | ⟨c, hrefused⟩
  · rw [copy_not_opened hreach hfile hopen] at hsame
    exact ⟨e, copyThenRemove_of_copy_error hsame⟩
  · exact ⟨.system c, copyThenRemove_of_copy_error hrefused⟩

/-- A copy that is refused ends the move, and nothing is changed. -/
theorem copyThenRemove_of_refused {e : IoError}
    (he : (h.copy source target rights).1 = .error e) :
    h.copyThenRemove source target rights = (.error e, h) := by
  refine copyThenRemove_of_copy_error
    (copy_refused (hs.reaches hnul hfile fun _ => nofun) hfile (fun file h₁ hopen hfull => ?_) he)
  obtain ⟨_, hf⟩ := (htarget.of_opened hs.standsAt_root hopen).2 _ hfull
  cases hf

/-- Where only the removal is refused, the file is in both places. -/
theorem copyThenRemove_of_kept (hother : ¬ h.Names target here)
    (hcopied : (h.copy source target rights).1 = .ok ()) {c : Cause}
    (hremove : rights.grant .remove here = .error c) :
    ∃ h' there, h.copyThenRemove source target rights = (.error (.system c), h') ∧
      h.Names target there ∧ h.ChangedAt h' there (.file content) := by
  obtain ⟨file, h₁, h₂, rest, hopen, hleft, hcontent, hc⟩ :=
    copyThenRemove_left hs hnul hfile hcopied hremove
  obtain ⟨hn, hold⟩ := htarget.of_opened hs.standsAt_root hopen
  refine ⟨h₂, file.place, hleft, hn, ?_⟩
  rwa [hcontent fun hplace => hother (hplace ▸ hn), wroteFace_of_file hold] at hc

end

/-- There is room in one tree exactly if there is room in the same tree. -/
theorem RoomFor.sameTree (hroom : h.RoomFor target) (hsame : h.root.SameTree h'.root)
    (hprocess : h'.process = h.process) : h'.RoomFor target := by
  obtain ⟨hnul, there, hn, hplain⟩ := hroom
  exact ⟨hnul, there, hn.sameTree hsame hprocess,
    fun hd => hplain (hsame.symm.isDirectoryAt hd)⟩

/-- A file that was copied and one that was renamed leave the same tree. -/
theorem sameTree_of_copied {h₁ h₁' : Host} (hsame : h.root.SameTree h₁.root)
    (hc : Copied h h' here there content)
    (hwrote : wroteFace .overwrite content (h.root.face? there) = .file content)
    (hren : Renamed h₁ h₁' here there content) (hne : here ≠ there) :
    h'.root.SameTree h₁'.root := by
  intro q
  by_cases hhere : q = here
  · rw [hhere, hc.gone, hren.gone]
  · by_cases hthere : q = there
    · rw [hthere, hc.put (Ne.symm hne), hren.put, hwrote]
    · rw [hc.elsewhere q hhere hthere, hren.elsewhere q hhere hthere]
      exact hsame q

/-- The rights to an entry do not go by the volume that it is on. -/
theorem Rights.Grants.sameTree (hgrants : rights.Grants h here target)
    (hsame : h.root.SameTree h'.root) (hprocess : h'.process = h.process) :
    rights.Grants h' here target := by
  have hsome (there : Place) : (h'.root.face? there).isSome = (h.root.face? there).isSome := by
    simpa using (congrArg Option.isSome (hsame there)).symm
  refine ⟨hgrants.read, hgrants.remove, fun there hn => ?_, fun there hn => ?_⟩
  · rw [rightToWrite, hsome]
    exact hgrants.write there (hn.sameTree hsame.symm hprocess.symm)
  · rw [rightToReplace, hsome]
    exact hgrants.replace there (hn.sameTree hsame.symm hprocess.symm)

/-- Copying a file and removing it goes as a renaming on one volume does,
for a process with the rights. -/
theorem copyThenRemove_as_on_one_volume (hs : h.Names source here) (hnul : hasNul source = false)
    (hfile : h.root.face? here = some (.file content)) (hother : ¬ h.Names target here)
    (htarget : h.NamesPlain target) (hgrants : rights.Grants h here target) (v : Nat) :
    (h.copyThenRemove source target rights).1.isOk =
        ((h.onVolume v).rename source target rights).1.isOk ∧
      (h.copyThenRemove source target rights).2.root.SameTree
        ((h.onVolume v).rename source target rights).2.root := by
  have hsame : h.root.SameTree (h.onVolume v).root := Node.sameTree_onVolume v h.root
  have hs₁ : (h.onVolume v).Names source here := hs.sameTree hsame rfl
  have hfile₁ : (h.onVolume v).root.face? here = some (.file content) :=
    hsame.face?_eq hfile fun _ he => Option.some.inj he ▸ rfl
  by_cases hroom : h.RoomFor target
  · have hroom₁ : (h.onVolume v).RoomFor target := hroom.sameTree hsame rfl
    obtain ⟨h', there, hcopy, hn, hc, hwrote⟩ :=
      copyThenRemove_of_room hs hnul hfile htarget hgrants hroom
    obtain ⟨h₁', there', hrename, hn₁, hcases⟩ :=
      rename_of_room hs₁ hfile₁ hnul (fun _ _ => Node.volumeOf_onVolume)
        (hgrants.sameTree hsame rfl) hroom₁
    obtain rfl := (hn₁.sameTree hsame.symm rfl).unique hn
    have hne : here ≠ there' := fun he => hother (he ▸ hn)
    have hren := (hcases.resolve_left fun he => hne he.1).2
    rw [hcopy, hrename]
    exact ⟨rfl, sameTree_of_copied hsame hc hwrote hren hne⟩
  · have hroom₁ : ¬ (h.onVolume v).RoomFor target := fun hroom₁ =>
      hroom (hroom₁.sameTree hsame.symm rfl)
    obtain ⟨e, hcopy⟩ := copyThenRemove_of_no_room hs hnul hfile htarget hroom
    obtain ⟨e₁, hrename⟩ := rename_of_no_room hs₁ hfile₁ hroom₁
    rw [hcopy, hrename]
    exact ⟨rfl, hsame⟩

/-! ## Moves that cross -/

/-- A renaming that is refused because it crosses volumes changes nothing. -/
theorem rename_of_crossing
    (hcross : (h.rename source target rights).1 = .error (.system .crossesDevices)) :
    h.rename source target rights = (.error (.system .crossesDevices), h) := by
  rcases rename_cases h source target rights with ⟨h', hr, -⟩ | ⟨e, hr, -⟩
  · rw [hr] at hcross
    cases hcross
  · rw [hr] at hcross ⊢
    cases hcross
    rfl

theorem isFile_of_isDirectory {p : Path} (hd : h.isDirectory p = true) : h.isFile p = false := by
  unfold isDirectory at hd
  unfold isFile
  split at hd
  · next spot node hl =>
    rw [hl]
    cases node <;> first | rfl | cases hd
  · cases hd

/-- A directory is not moved across volumes. -/
theorem move_directory_of_crossing
    (hcross : (h.rename source target rights).1 = .error (.system .crossesDevices))
    (hd : h.isDirectory source = true) :
    h.move source target rights = (.error (.system .crossesDevices), h) := by
  rw [move, rename_of_crossing hcross]
  simp [isFile_of_isDirectory hd]

end Host

end FileShell

/-
FileShell.Proofs.Host.Moving — when moving a regular file loses nothing.

`MoveKeeps` is what one wants of a move: after a success the target reads
back the file's bytes and the source is gone, after a refusal the source
still has them, and every other entry is as it was. It holds except in two
situations, and in both of them it fails (`move_keeps_iff`).

* `CopyGoesAstray`: the system refuses to rename across volumes, and the
  copy made instead follows a link at the target. It then empties the
  source before reading it, overwrites a file that neither path names, or
  vanishes in the null device. Renaming on one volume has no such case: it
  replaces the link.
* `StandsOnItself`: the target's path comes by the very link that it names.
  The renaming replaces the link, and the path leads nowhere afterwards.

The proof is one case for a renaming that is done, one for a copy that is
done, and one for either of them refused.
-/
import FileShell.Proofs.Host.Copying

namespace FileShell

namespace Host

open IoError (Cause)

variable {h h' : Host} {rights : Rights} {source target : Path} {here : Place} {content : Bytes}

/-! ## What a move should keep -/

/-- A move of the file at a place loses no data: not the file's, and not
anybody else's. -/
structure MoveKeeps (h : Host) (source target : Path) (here : Place) (content : Bytes) : Prop where
  moved : (h.move source target).1 = .ok () →
    (h.move source target).2.readAll target = .ok content ∧
      (¬ h.Names target here →
        (h.move source target).2.root.face? here = none ∧
          (h.move source target).2.exists? source = false)
  refused : ∀ e, (h.move source target).1 = .error e →
    (h.move source target).2.root.face? here = some (.file content) ∧
      (h.move source target).2.readAll source = .ok content
  others : ∀ q f, q ≠ here → ¬ h.Names target q → h.root.face? q = some f →
    (h.move source target).2.root.face? q = some f

/-- Where a copy must not end: at the source itself, at a file that the
target does not name, or, unless it is empty, in the null device. -/
def AstrayAt (h : Host) (target : Path) (here : Place) (content : Bytes) (place : Place) : Prop :=
  place = here ∨
    (¬ h.Names target place ∧ ∃ old, h.root.face? place = some (.file old) ∧ old ≠ content) ∨
    (h.root.face? place = some (.device .null) ∧ content ≠ [])

/-- The system refuses to rename across volumes, and the copy made instead
ends where it must not. -/
def CopyGoesAstray (h : Host) (source target : Path) (here : Place) (content : Bytes) : Prop :=
  (h.rename source target).1 = .error (.system .crossesDevices) ∧
    ∃ place, h.Reaches target place ∧ h.AstrayAt target here content place

/-- The renaming is done, and the target's path needs the entry that it
names to get there. -/
def StandsOnItself (h : Host) (source target : Path) : Prop :=
  (h.rename source target).1 = .ok () ∧
    ∃ directory n, h.Names target (directory ++ [n]) ∧
      ¬ (h.remove directory n).Names target (directory ++ [n])

/-! ## Renamings, done and refused -/

/-- What a renaming answers, and what it leaves. -/
theorem rename_cases (h : Host) (source target : Path) (rights : Rights := .all) :
    (∃ h', h.rename source target rights = (.ok (), h') ∧
      h.rename? source target rights = .ok h' ∧ hasNul target = false) ∨
    (∃ e, h.rename source target rights = (.error e, h) ∧
      (e.kind = .crossesDevices → e = .system .crossesDevices)) := by
  rw [rename]
  split
  · exact .inr ⟨_, rfl, nofun⟩
  · next hnul =>
    split
    · next c hc =>
      refine .inr ⟨_, rfl, fun hkind => ?_⟩
      cases c <;> first | rfl | cases hkind
    · next h' hok =>
      refine .inl ⟨h', rfl, hok, ?_⟩
      simp only [Bool.or_eq_true, not_or, Bool.not_eq_true] at hnul
      exact hnul.2

theorem move_of_renamed (hr : h.rename source target = (.ok (), h')) :
    h.move source target = (.ok (), h') := by
  rw [move, hr]

theorem move_of_refused {e : IoError} (hr : h.rename source target = (.error e, h))
    (hkind : e.kind ≠ .crossesDevices) : h.move source target = (.error e, h) := by
  rw [move, hr]
  simp [hkind]

theorem move_of_crossing
    (hr : h.rename source target rights = (.error (.system .crossesDevices), h))
    (hfile : h.isFile source = true) :
    h.move source target rights = h.copyThenRemove source target rights := by
  rw [move, hr]
  simp [hfile, IoError.kind, Cause.kind]

section

variable (hs : h.Names source here) (hnul : hasNul source = false)
  (hfile : h.root.face? here = some (.file content))
include hs hnul hfile

/-- A move that is refused and changes no entry keeps everything. -/
theorem moveKeeps_of_unchanged {e : IoError} (hm : h.move source target = (.error e, h'))
    (hprocess : h'.process = h.process) (hsame : ∀ q, h'.root.face? q = h.root.face? q) :
    h.MoveKeeps source target here content := by
  have hways : h.root.WaysIn h'.root := fun q f hf _ => by rw [hsame, hf]
  have hs' : h'.Names source here := hs.transfer hways (origin_congr hprocess _)
  have hfile' : h'.root.face? here = some (.file content) := (hsame here).trans hfile
  refine ⟨fun hok => ?_, fun _ _ => ?_, fun q f _ _ hf => ?_⟩
  · rw [hm] at hok
    cases hok
  · rw [hm]
    exact ⟨hfile', (hs'.reaches hnul hfile' fun _ => nofun).readAll_file hfile'⟩
  · rw [hm, hsame, hf]

end

/-- A move that succeeds keeps everything if the target reads back the
file and no other entry has changed. -/
theorem moveKeeps_of_ok (hm : h.move source target = (.ok (), h'))
    (hgone : ¬ h.Names target here →
      h'.root.face? here = none ∧ h'.exists? source = false) :
    h.MoveKeeps source target here content ↔
      h'.readAll target = .ok content ∧
        ∀ q f, q ≠ here → ¬ h.Names target q → h.root.face? q = some f →
          h'.root.face? q = some f := by
  constructor
  · rintro ⟨hmoved, _, hothers⟩
    rw [hm] at hmoved hothers
    exact ⟨(hmoved rfl).1, hothers⟩
  · rintro ⟨hread, hothers⟩
    refine ⟨fun _ => ?_, fun e he => ?_, ?_⟩
    · rw [hm]
      exact ⟨hread, hgone⟩
    · rw [hm] at he
      cases he
    · rw [hm]
      exact hothers

/-- A source whose entry is gone leads to nothing, where no way is new. -/
theorem exists?_of_gone (hs : h.Names source here) (hways : h'.root.WaysIn h.root)
    (horigin : h'.origin source = h.origin source) (hgone : h'.root.face? here = none) :
    h'.exists? source = false := by
  cases hl : h'.locate source with
  | error e => simp [exists?, hl, Except.isOk, Except.toBool]
  | ok found =>
    obtain ⟨place, hplace⟩ := hs.of_walk (walk_of_locate hl).2.1
    obtain rfl : place = here := (hplace.transfer hways horigin.symm).unique hs
    exact hplace.exists?_eq_false hgone

/-! ## A renaming that is done -/

section

variable {directory : Place} {n : Text} (hn : h.Names target (directory ++ [n]))
  (hnul : hasNul target = false) (hfile : h.root.face? here = some (.file content))
  (hr : Renamed h h' here (directory ++ [n]) content)
include hn hfile hr

/-- After a renaming the target names its entry if it would have done so
without the entry that was there. -/
theorem names_renamed_iff :
    h'.Names target (directory ++ [n]) ↔
      (h.remove directory n).Names target (directory ++ [n]) := by
  obtain ⟨directory', n', v, _, _, hplace, hd⟩ := hn.parent
  obtain ⟨rfl, ⟨⟩⟩ := List.append_inj' hplace rfl
  obtain ⟨hgone, hothers⟩ := face?_remove hd hr.replaced
  have horigin : h'.origin target = h.origin target := hn.origin_eq hr.process
  have hto : (h.remove directory n).root.WaysIn h'.root := by
    intro q f hf hway
    have hthere : q ≠ directory ++ [n] := by
      rintro rfl
      cases hf.symm.trans hgone
    rw [hothers q hthere] at hf
    have hhere : q ≠ here := by
      rintro rfl
      cases hf.symm.trans hfile
      cases hway
    rw [hr.elsewhere q hhere hthere, hf]
  have hfrom : h'.root.WaysIn (h.remove directory n).root := by
    intro q f hf hway
    have hthere : q ≠ directory ++ [n] := by
      rintro rfl
      cases hf.symm.trans hr.put
      cases hway
    rw [hothers q hthere]
    exact hr.waysIn_symm q f hf hway
  exact ⟨fun h' => h'.transfer hfrom horigin.symm, fun h₀ => h₀.transfer hto horigin⟩

include hnul

/-- The target of a renaming reads back the file if it still names it. -/
theorem readAll_renamed_iff :
    h'.readAll target = .ok content ↔
      (h.remove directory n).Names target (directory ++ [n]) := by
  rw [← names_renamed_iff hn hfile hr]
  constructor
  · intro hread
    obtain ⟨_, _, ⟨_, hwalk⟩, _⟩ := exists_reaches_of_readAll hread
    obtain ⟨place, hplace⟩ := hn.of_walk hwalk
    obtain rfl : place = directory ++ [n] :=
      (hplace.transfer hr.waysIn_symm (hn.origin_eq hr.process).symm).unique hn
    exact hplace
  · intro hn'
    exact (hn'.reaches hnul hr.put fun _ => nofun).readAll_file hr.put

end

/-! ## A copy that is done -/

/-- There is something that a copy can be written to where it must not end. -/
theorem AstrayAt.exists_face {place : Place} (ha : h.AstrayAt target here content place)
    (hfile : h.root.face? here = some (.file content)) :
    ∃ f, h.root.face? place = some f ∧ f.isDirectory = false ∧ f ≠ .device .full := by
  rcases ha with rfl | ⟨_, old, hold, _⟩ | ⟨hnull, _⟩
  · exact ⟨_, hfile, rfl, nofun⟩
  · exact ⟨_, hold, rfl, nofun⟩
  · exact ⟨_, hnull, rfl, nofun⟩

section

variable {place : Place} {x : Found} (hs : h.Names source here)
  (hfile : h.root.face? here = some (.file content)) (hnul : hasNul target = false)
  (hwalk : h.walk true target = .ok x) (hx : x.spot = .inTree place)
  (hc : Copied h h' here place content)
include hs hnul hwalk hx

/-- A walk ends at no link, where a file is. -/
theorem not_link_of_walk (link : Path) : h.root.face? place ≠ some (.link link) := by
  intro hlink
  obtain ⟨_, hwalk'⟩ := reaches_of_walk hnul (walk_of_making hwalk) hx hlink
  obtain ⟨f, hf, hplain⟩ := walk_endsAt hs.standsAt_root hwalk' place rfl
  exact hplain link (Option.some.inj (hf.symm.trans hlink))

include hfile hc

/-- The target of a copy leads to the copy, wherever that is. -/
theorem Copied.reaches (hne : place ≠ here) : h'.Reaches target place := by
  have hend : h'.root.EndsAt x.spot := by
    rw [hx]
    rintro _ ⟨⟩
    refine ⟨_, hc.put hne, fun link hlink => ?_⟩
    have hold : h.root.face? place = some (wroteFace .overwrite content (h.root.face? place)) :=
      wroteFace_isWay (by rw [hlink]; rfl)
    exact not_link_of_walk hs hnul hwalk hx link (by rw [hold, hlink])
  have hwalk' := walk_transfer (hc.waysIn hfile) (origin_congr hc.process target)
    (walk_of_making hwalk) hend
  exact ⟨hnul, hx ▸ hwalk'⟩

/-- A copy that does not go astray is read back. -/
theorem Copied.readAll (ha : ¬ h.AstrayAt target here content place) :
    h'.readAll target = .ok content := by
  have hne : place ≠ here := fun he => ha (.inl he)
  have hreach := hc.reaches hs hfile hnul hwalk hx hne
  have hput := hc.put hne
  cases ho : h.root.face? place with
  | none =>
    rw [ho] at hput
    exact hreach.readAll_file hput
  | some f =>
    rw [ho] at hput
    cases f with
    | directory v => exact absurd ⟨_, ho, rfl⟩ hc.plain
    | file old => exact hreach.readAll_file hput
    | link link => exact absurd ho (not_link_of_walk hs hnul hwalk hx link)
    | device kind =>
      have hempty : content = [] := by
        cases kind with
        | full => exact hc.room hne ho
        | null => exact Classical.byContradiction fun hcontent => ha (.inr (.inr ⟨ho, hcontent⟩))
      rw [hempty]
      exact hreach.readAll_device hput

omit hnul in
/-- A copy onto the source itself leads nowhere once the source is removed. -/
theorem Copied.not_readAll_here (hhere : place = here) (bytes : Bytes) :
    h'.readAll target ≠ .ok bytes := by
  intro hread
  obtain ⟨place', node, hplace', hnode⟩ := exists_reaches_of_readAll hread
  have hface' : h'.root.face? place' = some node.face := Node.face?_of_find? hnode
  have hne : place' ≠ here := by
    rintro rfl
    cases hface'.symm.trans hc.gone
  -- The same entry was there before, so the path led to it, and not to the source.
  have hface : h.root.face? place' = some node.face := by
    rw [← hc.elsewhere place' hne (hhere ▸ hne), hface']
  have hend : h.root.EndsAt (.inTree place') := by
    rintro _ ⟨⟩
    have hroot' := (hc.waysIn hfile).standsAt hs.standsAt_root
    obtain ⟨f, hf, hplain⟩ := walk_endsAt hroot' hplace'.2 place' rfl
    exact ⟨f, by rw [hface, ← hface', hf], hplain⟩
  have hwalk' := walk_transfer (hc.waysIn_symm hfile) (origin_congr hc.process target).symm
    hplace'.2 hend
  cases (walk_of_making hwalk).symm.trans hwalk'
  cases hx
  exact hne hhere

omit hs hfile hnul hwalk in
/-- What a copy overwrites is what its target names, if it does not go astray. -/
theorem Copied.others (ha : ¬ h.AstrayAt target here content place) {q : Place} {f : Face}
    (hq : q ≠ here) (hname : ¬ h.Names target q) (hf : h.root.face? q = some f) :
    h'.root.face? q = some f := by
  by_cases hplace : q = place
  · subst hplace
    rw [hc.put hq, hf]
    cases f with
    | file old =>
      have hsame : old = content :=
        Classical.byContradiction fun hne => ha (.inr (.inl ⟨hname, old, hf, hne⟩))
      rw [hsame]
      rfl
    | _ => rfl
  · rw [hc.elsewhere q hq hplace, hf]

/-- A copy keeps everything exactly if it does not go astray. -/
theorem Copied.keeps_iff :
    (h'.readAll target = .ok content ∧ ∀ q f, q ≠ here → ¬ h.Names target q →
      h.root.face? q = some f → h'.root.face? q = some f) ↔
    ¬ h.AstrayAt target here content place := by
  constructor
  · rintro ⟨hread, hothers⟩ (hhere | ⟨hname, old, hold, hne⟩ | ⟨hnull, hcontent⟩)
    · exact hc.not_readAll_here hs hfile hwalk hx hhere content hread
    · by_cases hhere : place = here
      · exact hc.not_readAll_here hs hfile hwalk hx hhere content hread
      · have hput := hothers place _ hhere hname hold
        rw [hc.put hhere, hold] at hput
        cases hput
        exact hne rfl
    · have hhere : place ≠ here := by
        rintro rfl
        cases hfile.symm.trans hnull
      have hput := hc.put hhere
      rw [hnull] at hput
      have hempty := (hc.reaches hs hfile hnul hwalk hx hhere).readAll_device hput
      exact hcontent (Except.ok.inj (hread.symm.trans hempty))
  · intro ha
    exact ⟨hc.readAll hs hfile hnul hwalk hx ha,
      fun q f hq hname hf => hc.others hx ha hq hname hf⟩

end

/-! ## Every move -/

section

variable (hs : h.Names source here) (hnul : hasNul source = false)
  (hfile : h.root.face? here = some (.file content))
include hs hnul hfile

theorem source_isFile : h.isFile source = true :=
  (hs.reaches hnul hfile fun _ => nofun).isFile hfile

/-- Across volumes a move is a copy. -/
theorem moveKeeps_iff_of_crossing
    (hr : h.rename source target = (.error (.system .crossesDevices), h)) :
    h.MoveKeeps source target here content ↔
      ¬ h.CopyGoesAstray source target here content := by
  have hmove := move_of_crossing hr (source_isFile hs hnul hfile)
  have hcrosses : (h.rename source target).1 = .error (.system .crossesDevices) := by rw [hr]
  rcases hopen : h.openForWrite target .overwrite with ⟨e | file, h₁⟩
  · -- The target cannot be opened, so the walk does not end where a copy could.
    obtain rfl := openForWrite_error hopen
    have hrefused : h₁.move source target = (.error e, h₁) :=
      hmove.trans (copyThenRemove_refused (hs.reaches hnul hfile fun _ => nofun) hfile hopen)
    refine iff_of_true (moveKeeps_of_unchanged hs hnul hfile hrefused rfl fun _ => rfl) ?_
    rintro ⟨_, place, hplace, hastray⟩
    obtain ⟨f, hf, hplain, _⟩ := hastray.exists_face hfile
    obtain ⟨h', hopen'⟩ := exists_openForWrite hplace hf hplain .overwrite
    cases hopen.symm.trans hopen'
  · obtain ⟨hnul', hopen'⟩ := openForWrite_ok hopen
    obtain ⟨⟨x, hwalk, hx⟩, _, _⟩ := openForWrite?_spec hopen'
    have hplaces : ∀ place, h.Reaches target place → place = file.place := by
      intro place hplace
      cases (walk_of_making hwalk).symm.trans hplace.2
      cases hx
      rfl
    rcases copyThenRemove_opened hs hnul hfile hopen with
      ⟨h', hcopy, hc⟩ | ⟨hfull, e, h', hcopy, hprocess, hsame⟩
    · have hgone := fun _ : ¬ h.Names target here => And.intro hc.gone
        (exists?_of_gone hs (hc.waysIn_symm hfile) (origin_congr hc.process source) hc.gone)
      rw [moveKeeps_of_ok (hmove.trans hcopy) hgone, hc.keeps_iff hs hfile hnul' hwalk hx]
      refine not_congr ⟨fun hastray => ⟨hcrosses, file.place, ?_, hastray⟩, ?_⟩
      · obtain ⟨f, hf, _⟩ := hastray.exists_face hfile
        exact reaches_of_walk hnul' (walk_of_making hwalk) hx hf
      · rintro ⟨_, place, hplace, hastray⟩
        exact hplaces place hplace ▸ hastray
    · refine iff_of_true
        (moveKeeps_of_unchanged hs hnul hfile (hmove.trans hcopy) hprocess hsame) ?_
      rintro ⟨_, place, hplace, hastray⟩
      obtain ⟨f, hf, _, hroom⟩ := hastray.exists_face hfile
      rw [hplaces place hplace, hfull] at hf
      exact hroom (Option.some.inj hf).symm

omit hnul in
/-- A renaming that is done keeps everything, unless its target stands on itself. -/
theorem moveKeeps_iff_of_renamed (hr : h.rename source target = (.ok (), h'))
    (hr? : h.rename? source target = .ok h') (hnul' : hasNul target = false) :
    h.MoveKeeps source target here content ↔ ¬ h.StandsOnItself source target := by
  have hdone : (h.rename source target).1 = .ok () := by rw [hr]
  obtain ⟨there, hn, hcases⟩ := rename?_ok hs hfile hr?
  obtain ⟨directory, n, v, _, _, rfl, hd⟩ := hn.parent
  have hiff : h.StandsOnItself source target ↔
      ¬ (h.remove directory n).Names target (directory ++ [n]) := by
    refine ⟨?_, fun hnot => ⟨hdone, directory, n, hn, hnot⟩⟩
    rintro ⟨_, directory', n', hn', hnot⟩
    obtain ⟨rfl, ⟨⟩⟩ := List.append_inj' (hn.unique hn') rfl
    exact hnot
  rw [hiff, Classical.not_not]
  rcases hcases with ⟨rfl, rfl⟩ | ⟨hne, hren⟩
  · -- Both paths name the one entry, and nothing happens.
    have hread := (hn.reaches hnul' hfile fun _ => nofun).readAll_file hfile
    obtain ⟨_, hothers⟩ := face?_remove hd (Node.not_isDirectoryAt_some hfile rfl)
    refine iff_of_true ?_ (hn.transfer (fun q f hf hway => ?_) (origin_congr rfl target))
    · exact (moveKeeps_of_ok (move_of_renamed hr) fun hnot => absurd hn hnot).mpr
        ⟨hread, fun q f _ _ hf => hf⟩
    · rw [hothers q ?_, hf]
      rintro rfl
      cases hf.symm.trans hfile
      cases hway
  · have hgone := fun _ : ¬ h.Names target here => And.intro hren.gone
      (exists?_of_gone hs hren.waysIn_symm (hs.origin_eq hren.process) hren.gone)
    rw [moveKeeps_of_ok (move_of_renamed hr) hgone, readAll_renamed_iff hn hnul' hfile hren]
    refine and_iff_left fun q f hq hname hf => ?_
    have hthere : q ≠ directory ++ [n] := by
      rintro rfl
      exact hname hn
    rw [hren.elsewhere q hq hthere, hf]

/-- A move of a regular file loses no data, exactly if no copy across
volumes goes astray and no renaming takes the ground from under its
target. -/
theorem move_keeps_iff (target : Path) :
    h.MoveKeeps source target here content ↔
      ¬ h.CopyGoesAstray source target here content ∧ ¬ h.StandsOnItself source target := by
  rcases rename_cases h source target with ⟨h', hr, hr?, hnul'⟩ | ⟨e, hr, hkind⟩
  · rw [moveKeeps_iff_of_renamed hs hfile hr hr? hnul']
    refine (and_iff_right ?_).symm
    rintro ⟨hcrosses, _⟩
    rw [hr] at hcrosses
    cases hcrosses
  · have hstands : ¬ h.StandsOnItself source target := by
      rintro ⟨hdone, _⟩
      rw [hr] at hdone
      cases hdone
    rw [and_iff_left hstands]
    by_cases hcrosses : e.kind = .crossesDevices
    · obtain rfl := hkind hcrosses
      exact moveKeeps_iff_of_crossing hs hnul hfile hr
    · refine iff_of_true (moveKeeps_of_unchanged hs hnul hfile (move_of_refused hr hcrosses) rfl
        fun _ => rfl) ?_
      rintro ⟨he, _⟩
      rw [hr] at he
      cases he
      exact hcrosses rfl

end

/-- A file moved to a free name on another volume. -/
theorem move_keeps_on_free_name :
    let h : Host := ⟨.directory 0 [(['a'], .file [120]), (['m'], .directory 1 [])], .inTree []⟩
    h.MoveKeeps ⟨['/', 'a']⟩ ⟨['/', 'm', '/', 'b']⟩ [['a']] [120] := by
  intro h
  have hs : h.Names ⟨['/', 'a']⟩ [['a']] := ⟨[], ['a'], rfl, by decide, rfl⟩
  refine (move_keeps_iff hs rfl rfl ⟨['/', 'm', '/', 'b']⟩).mpr ⟨?_, ?_⟩
  · rintro ⟨_, place, ⟨_, hwalk⟩, _⟩
    cases hwalk
  · rintro ⟨hdone, _⟩
    cases hdone

/-- A file moved to another volume, onto a link that leads to the file: the
move is said to be done, the bytes are nowhere, and the link leads nowhere. -/
theorem move_loses_file_onto_link_to_it :
    let h : Host := ⟨.directory 0 [(['a'], .file [120]),
      (['m'], .directory 1 [(['l'], .link ⟨['/', 'a']⟩)])], .inTree []⟩
    let after := h.move ⟨['/', 'a']⟩ ⟨['/', 'm', '/', 'l']⟩
    after.1 = .ok () ∧
      after.2.root.find? [['a']] = none ∧
      after.2.exists? ⟨['/', 'm', '/', 'l']⟩ = false ∧
      ¬ h.MoveKeeps ⟨['/', 'a']⟩ ⟨['/', 'm', '/', 'l']⟩ [['a']] [120] := by
  intro h after
  refine ⟨rfl, rfl, rfl, fun hkeeps => ?_⟩
  cases (hkeeps.moved rfl).1

end Host

end FileShell

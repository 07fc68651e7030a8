/-
FileShell.Proofs.Host.Writing — what writing to a path does to a machine.

A write shows at one place, the one that the walk of its path ends at:
`ChangedAt` says that a machine is another one with a new face there, and
nothing else. Opening and writing each make such a change, told by what
becomes of the face (`openedFace`, `writtenFace`), and two changes at one
place are one.

Since neither the old entry nor the new one is a directory or a link, the
machine keeps its ways (`ChangedAt.waysIn`), and the path that was written
to is the path that reads back what was written (`readAll_write`).
-/
import FileShell.Proofs.Host.Naming

namespace FileShell

namespace Host

open IoError (Cause)

variable {h h' h'' : Host} {p : Path} {place : Place} {mode : WriteMode}

/-! ## Changes at one place -/

/-- A machine is another one with a new face at one place. -/
structure ChangedAt (h h' : Host) (place : Place) (face : Face) : Prop where
  process : h'.process = h.process
  here : h'.root.face? place = some face
  elsewhere : ∀ q, q ≠ place → h'.root.face? q = h.root.face? q

theorem ChangedAt.refl {face : Face} (hface : h.root.face? place = some face) :
    h.ChangedAt h place face :=
  ⟨rfl, hface, fun _ _ => rfl⟩

theorem ChangedAt.trans {face face' : Face} (hc : h.ChangedAt h' place face)
    (hc' : h'.ChangedAt h'' place face') : h.ChangedAt h'' place face' :=
  ⟨hc'.process.trans hc.process, hc'.here,
    fun q hq => (hc'.elsewhere q hq).trans (hc.elsewhere q hq)⟩

/-- A change that leaves the entry as it was, if that is a way, leaves all ways. -/
theorem ChangedAt.waysIn {face : Face} (hc : h.ChangedAt h' place face)
    (hold : ∀ f, h.root.face? place = some f → f.isWay = true → face = f) :
    h.root.WaysIn h'.root := by
  intro q f hf hway
  by_cases hq : q = place
  · subst hq
    rw [hc.here, hold f hf hway]
  · rw [hc.elsewhere q hq, hf]

/-- A change to a way that was there before adds no way. -/
theorem ChangedAt.waysIn_symm {face : Face} (hc : h.ChangedAt h' place face)
    (hnew : face.isWay = true → h.root.face? place = some face) : h'.root.WaysIn h.root := by
  intro q f hf hway
  by_cases hq : q = place
  · subst hq
    cases hf.symm.trans hc.here
    exact hnew hway
  · rwa [hc.elsewhere q hq] at hf

/-! ## The change that a new face makes -/

/-- Another content for a file, or another entry for one that is no directory. -/
theorem changedAt_replaceAt {old : Node} (hold : h.root.find? place = some old)
    (hplain : old.isDirectory = false) {node : Node} (hnode : node.isDirectory = false) :
    h.ChangedAt (h.replaceAt place node) place node.face := by
  have hhere : (h.replaceAt place node).root.face? place = some node.face :=
    Node.face?_of_find? (find?_replaceAt h node hold)
  refine ⟨rfl, hhere, fun q hq => ?_⟩
  refine Node.face?_eq_of_ne (fun q hq => face?_replaceAt_off h node hq) ?_ ?_ hq
  · exact Node.not_isDirectoryAt_some (Node.face?_of_find? hold)
      (old.isDirectory_face.trans hplain)
  · exact Node.not_isDirectoryAt_some hhere (node.isDirectory_face.trans hnode)

/-- A new entry of a directory, in the place of none or of one that is no
directory. -/
theorem changedAt_put {directory : Place} {n : Text} {v : Nat}
    (hd : h.root.face? directory = some (.directory v))
    (hplain : ¬ h.root.IsDirectoryAt (directory ++ [n])) (node : Node)
    (hnode : node.isDirectory = false) :
    h.ChangedAt (h.put directory n node) (directory ++ [n]) node.face := by
  have hhere : (h.put directory n node).root.face? (directory ++ [n]) = some node.face :=
    Node.face?_of_find? (find?_put h node hd)
  refine ⟨rfl, hhere, fun q hq => ?_⟩
  refine Node.face?_eq_of_ne (fun q hq => face?_put_off h node hq) hplain ?_ hq
  exact Node.not_isDirectoryAt_some hhere (node.isDirectory_face.trans hnode)

/-! ## Opening -/

/-- What opening for writing makes of the entry that is found, if any. -/
def openedFace (mode : WriteMode) : Option Face → Face
  | none => .file []
  | some (.file old) =>
    match mode with
    | .overwrite => .file []
    | .append => .file old
  | some f => f

/-- What writing makes of an open entry. -/
def writtenFace (content : Bytes) : Face → Face
  | .file old => .file (old ++ content)
  | f => f

/-- A walk ends where there is no entry only in a directory. -/
theorem Leads.vacant {root : Node} {links : Nat} {here : Spot} {ss : List Step} {d : Place}
    {n : Text} (hleads : Leads root links here ss (.vacant d n)) :
    (∃ v, root.face? d = some (.directory v)) ∧ root.face? (d ++ [n]) = none := by
  generalize hend : Found.vacant d n = x at hleads
  induction hleads with
  | arrived => cases hend
  | missing hd _ hnone =>
    cases hend
    exact ⟨Node.standsAt_inTree.mp hd, hnone⟩
  | stay _ _ _ ih => exact ih hend
  | up _ _ ih => exact ih hend
  | enter _ _ _ _ _ ih => exact ih hend
  | detour _ _ _ _ _ ih => exact ih hend

theorem openForWrite?_of_entry (hwalk : h.walk true p = .ok (.entry (.inTree place))) :
    h.openForWrite? p mode =
      match h.root.find? place, mode with
      | none, _ => .error .noEntry
      | some (.directory _ _), _ => .error .isADirectory
      | some (.file _), .overwrite => .ok (⟨place⟩, h.replaceAt place (.file []))
      | some _, _ => .ok (⟨place⟩, h) := by
  rw [openForWrite?, hwalk]
  rfl

/-- Opening reaches the place where the walk ends, and no other. -/
theorem openForWrite?_spec {file : OpenFile} (ho : h.openForWrite? p mode = .ok (file, h')) :
    (∃ x, h.walk true p = .ok x ∧ x.spot = .inTree file.place) ∧
      ¬ h.root.IsDirectoryAt file.place ∧
        h.ChangedAt h' file.place (openedFace mode (h.root.face? file.place)) := by
  cases hwalk : h.walk true p with
  | error e =>
    rw [openForWrite?, hwalk] at ho
    cases ho
  | ok x =>
    cases x with
    | vacant directory n =>
      rw [openForWrite?, hwalk] at ho
      cases ho
      obtain ⟨start, _, hleads⟩ := walk_eq_ok_iff.mp (walk_of_making hwalk)
      obtain ⟨⟨v, hd⟩, hnone⟩ := hleads.vacant
      have hplain : ¬ h.root.IsDirectoryAt (directory ++ [n]) := Node.not_isDirectoryAt_none hnone
      refine ⟨⟨_, rfl, rfl⟩, hplain, ?_⟩
      rw [hnone]
      exact changedAt_put hd hplain (.file []) rfl
    | entry spot =>
      cases spot with
      | removed above =>
        rw [openForWrite?, hwalk] at ho
        cases ho
      | inTree place =>
        rw [openForWrite?_of_entry hwalk] at ho
        cases hnode : h.root.find? place with
        | none =>
          rw [hnode] at ho
          cases ho
        | some node =>
          have hface : h.root.face? place = some node.face := Node.face?_of_find? hnode
          rw [hnode] at ho
          cases node with
          | directory v es => cases ho
          | file old =>
            have hplain : ¬ h.root.IsDirectoryAt place := Node.not_isDirectoryAt_some hface rfl
            cases mode with
            | overwrite =>
              cases ho
              refine ⟨⟨_, rfl, rfl⟩, hplain, ?_⟩
              rw [hface]
              exact changedAt_replaceAt hnode rfl rfl
            | append =>
              cases ho
              refine ⟨⟨_, rfl, rfl⟩, hplain, ?_⟩
              rw [hface]
              exact .refl hface
          | _ =>
            cases ho
            refine ⟨⟨_, rfl, rfl⟩, Node.not_isDirectoryAt_some hface rfl, ?_⟩
            rw [hface]
            exact .refl hface

theorem openForWrite_ok {file : OpenFile} (ho : h.openForWrite p mode = (.ok file, h')) :
    hasNul p = false ∧ h.openForWrite? p mode = .ok (file, h') := by
  rw [openForWrite] at ho
  split at ho
  · cases ho
  · next hnul =>
    split at ho
    · cases ho
    · next hok =>
      cases ho
      exact ⟨by simpa using hnul, hok⟩

/-- A path that leads to anything but a directory can be opened. -/
theorem exists_openForWrite (hp : h.Reaches p place) {f : Face}
    (hf : h.root.face? place = some f) (hplain : f.isDirectory = false) (mode : WriteMode) :
    ∃ h', h.openForWrite p mode = (.ok ⟨place⟩, h') := by
  have hstands : ¬ h.root.StandsAt (.inTree place) := by
    intro hd
    obtain ⟨v, hv⟩ := Node.standsAt_inTree.mp hd
    cases hf.symm.trans hv
    cases hplain
  have hwalk : h.walk true p = .ok (.entry (.inTree place)) :=
    walk_making hp.2 fun _ hend => Found.entry.inj hend ▸ hstands
  obtain ⟨node, hnode, rfl⟩ := Option.map_eq_some_iff.mp hf
  have hopen : ∃ h', h.openForWrite? p mode = .ok (⟨place⟩, h') := by
    rw [openForWrite?_of_entry hwalk, hnode]
    cases node with
    | directory v es => cases hplain
    | file old => cases mode <;> exact ⟨_, rfl⟩
    | _ => exact ⟨_, rfl⟩
  obtain ⟨h', hopen⟩ := hopen
  exact ⟨h', by simp [openForWrite, hp.1, hopen]⟩

/-- What cannot be opened is left alone. -/
theorem openForWrite_error {e : IoError} (ho : h.openForWrite p mode = (.error e, h')) :
    h' = h := by
  rw [openForWrite] at ho
  split at ho
  · cases ho
    rfl
  · split at ho <;> cases ho
    rfl

/-! ## Writing -/

section

variable {file : OpenFile} {content : Bytes} {f : Face}

/-- Writing changes the content of the open file, or nothing. -/
theorem writeTo_ok (hf : h.root.face? file.place = some f)
    (hw : h.writeTo file content = (.ok (), h')) :
    h.ChangedAt h' file.place (writtenFace content f) ∧ (f = .device .full → content = []) := by
  rw [writeTo] at hw
  split at hw
  · next old hold =>
    cases hw
    cases hf.symm.trans (Node.find?_file_iff.mp hold)
    exact ⟨changedAt_replaceAt hold rfl rfl, nofun⟩
  · next hfull =>
    cases hf.symm.trans (Node.find?_device_iff.mp hfull)
    split at hw
    · next hempty =>
      cases hw
      exact ⟨.refl hf, fun _ => hempty⟩
    · cases hw
  · next hfile hfull =>
    cases hw
    have hsame : writtenFace content f = f := by
      cases f with
      | file old => exact absurd (Node.find?_file_iff.mpr hf) (hfile old)
      | _ => rfl
    rw [hsame]
    exact ⟨.refl hf, fun he => absurd (Node.find?_device_iff.mpr (he ▸ hf)) hfull⟩

/-- Only a device can refuse to be written to. -/
theorem writeTo_error {e : IoError} (hw : h.writeTo file content = (.error e, h')) :
    h' = h ∧ h.root.face? file.place = some (.device .full) ∧ content ≠ [] := by
  rw [writeTo] at hw
  split at hw
  · cases hw
  · next hfull =>
    split at hw
    · cases hw
    · next hcontent =>
      cases hw
      exact ⟨rfl, Node.find?_device_iff.mp hfull, hcontent⟩
  · cases hw

theorem writtenFace_isWay (hway : (writtenFace content f).isWay = true) :
    writtenFace content f = f := by
  cases f <;> first | rfl | cases hway

theorem openedFace_isWay {o : Option Face} (hway : (openedFace mode o).isWay = true) :
    o = some (openedFace mode o) := by
  rcases o with _ | _ | _ | _ | _ <;> first | rfl | (cases mode <;> cases hway)

theorem openedFace_eq_device {o : Option Face} {kind : Device}
    (ho : openedFace mode o = .device kind) : o = some (.device kind) := by
  rcases o with _ | _ | _ | _ | _ <;> first | cases ho | (cases mode <;> cases ho)
  rfl

end

/-- The face of an entry that was opened and written to. -/
def wroteFace (mode : WriteMode) (content : Bytes) (o : Option Face) : Face :=
  writtenFace content (openedFace mode o)

theorem wroteFace_isWay {content : Bytes} {o : Option Face}
    (hway : (wroteFace mode content o).isWay = true) : o = some (wroteFace mode content o) := by
  have hsame : wroteFace mode content o = openedFace mode o := writtenFace_isWay hway
  rw [hsame] at hway ⊢
  exact openedFace_isWay hway

theorem wroteFace_of_isWay {content : Bytes} {f : Face} (hway : f.isWay = true) :
    wroteFace mode content (some f) = f := by
  cases f <;> first | rfl | cases hway

/-- Being written to, an entry stays the way it is, or no way. -/
theorem ChangedAt.waysIn_wrote {content : Bytes}
    (hc : h.ChangedAt h' place (wroteFace mode content (h.root.face? place))) :
    h.root.WaysIn h'.root :=
  hc.waysIn fun _ hf hway => hf ▸ wroteFace_of_isWay hway

/-- A write that succeeds is one change, where the walk of its path ends. -/
theorem write_ok {content : Bytes} (hw : h.write p mode content = (.ok (), h')) :
    ∃ x place, hasNul p = false ∧ h.walk true p = .ok x ∧ x.spot = .inTree place ∧
      h.ChangedAt h' place (wroteFace mode content (h.root.face? place)) := by
  rw [write] at hw
  split at hw
  · cases hw
  · next file hmid hopen =>
    split at hw
    · cases hw
    · next hend =>
      cases hw
      obtain ⟨hnul, hopen⟩ := openForWrite_ok hopen
      obtain ⟨⟨x, hwalk, hx⟩, _, hopened⟩ := openForWrite?_spec hopen
      exact ⟨x, file.place, hnul, hwalk, hx, hopened.trans (writeTo_ok hopened.here hend).1⟩

/-! ## Reading back -/

/-- A path leads to what is where its walk ends. -/
theorem reaches_of_walk (hnul : hasNul p = false) {x : Found} (hw : h.walk false p = .ok x)
    (hx : x.spot = .inTree place) {f : Face} (hface : h.root.face? place = some f) :
    h.Reaches p place := by
  cases x with
  | entry spot =>
    obtain rfl : spot = .inTree place := hx
    exact ⟨hnul, hw⟩
  | vacant directory n =>
    cases hx
    obtain ⟨_, _, hleads⟩ := walk_eq_ok_iff.mp hw
    cases hface.symm.trans hleads.vacant.2

/-- A path that was written to leads to what was written, unless a link was there. -/
theorem ChangedAt.reaches {content : Bytes}
    (hc : h.ChangedAt h' place (wroteFace mode content (h.root.face? place)))
    (hnul : hasNul p = false) {x : Found} (hw : h.walk true p = .ok x)
    (hx : x.spot = .inTree place) (hlink : ∀ target, h.root.face? place ≠ some (.link target)) :
    h'.Reaches p place := by
  have hend : h'.root.EndsAt x.spot := by
    rw [hx]
    rintro _ ⟨⟩
    refine ⟨_, hc.here, fun target he => hlink target ?_⟩
    have hold : h.root.face? place = some (wroteFace mode content (h.root.face? place)) :=
      wroteFace_isWay (by rw [he]; rfl)
    rw [hold, he]
  have hwalk := walk_transfer hc.waysIn_wrote (origin_congr hc.process p) (walk_of_making hw) hend
  exact ⟨hnul, hx ▸ hwalk⟩

end Host

/-- What a write leaves of the old content. -/
def WriteMode.kept : WriteMode → Bytes → Bytes
  | .overwrite, _ => []
  | .append, old => old

namespace Host

variable {h h' : Host} {p : Path} {mode : WriteMode}

/-- What a path holds: nothing if it leads to nothing that can be read. -/
def held (h : Host) (p : Path) : Bytes :=
  match h.readAll p with
  | .ok content => content
  | .error _ => []

/-- What was written to a path that led to a file or to nothing is in the
file that the path leads to now, after what was kept of it. -/
theorem write_file {content : Bytes} (hw : h.write p mode content = (.ok (), h'))
    (ht : h.exists? p = false ∨ h.isFile p = true) :
    ∃ place, h'.Reaches p place ∧
      h.ChangedAt h' place (.file (mode.kept (h.held p) ++ content)) := by
  obtain ⟨x, place, hnul, hwalk, hx, hc⟩ := write_ok hw
  rcases ht with hnone | hfile
  · -- Nothing was found, so what the walk ended at was made.
    have hface : h.root.face? place = none := by
      cases hface : h.root.face? place with
      | none => rfl
      | some f =>
        have hp := reaches_of_walk hnul (walk_of_making hwalk) hx hface
        obtain ⟨node, hnode, _⟩ := Option.map_eq_some_iff.mp hface
        simp [exists?, hp.locate hnode, Except.isOk, Except.toBool] at hnone
    have hheld : h.held p = [] := by
      cases hl : h.locate p with
      | error e => simp [held, readAll, hl]
      | ok found => simp [exists?, hl, Except.isOk, Except.toBool] at hnone
    have hreach := hc.reaches hnul hwalk hx (by simp [hface])
    refine ⟨place, hreach, ?_⟩
    rw [hface] at hc
    rw [hheld]
    cases mode <;> exact hc
  · obtain ⟨place', old, hp, hface⟩ := exists_reaches_of_isFile hfile
    obtain rfl : place = place' := by
      cases (walk_of_making hwalk).symm.trans hp.2
      cases hx
      rfl
    have hheld : h.held p = old := by rw [held, hp.readAll_file hface]
    have hreach := hc.reaches hnul hwalk hx (by simp [hface])
    refine ⟨place, hreach, ?_⟩
    rw [hface] at hc
    rw [hheld]
    cases mode <;> exact hc

/-- A path that leads to a directory is refused. -/
theorem isDirectory_eq_false_of_write {content : Bytes} (hw : h.write p mode content = (.ok (), h'))
    {spot : Spot} {node : Node} (hl : h.locate p = .ok (spot, node)) : node.isDirectory = false := by
  obtain ⟨_, hwalk', hnode⟩ := walk_of_locate hl
  rw [write] at hw
  split at hw
  · cases hw
  · next file _ hopen =>
    obtain ⟨⟨x, hwalk, hx⟩, hplain, _⟩ := openForWrite?_spec (openForWrite_ok hopen).2
    obtain rfl : Found.entry spot = x := by
      cases (walk_of_making hwalk).symm.trans hwalk'
      rfl
    obtain rfl : spot = .inTree file.place := hx
    cases hdirectory : node.isDirectory with
    | false => rfl
    | true => exact absurd ⟨_, Node.face?_of_find? hnode, by rwa [Node.isDirectory_face]⟩ hplain

/-- What was written to a path is read back from it, unless the path read as
empty, as it may where nothing is kept. -/
theorem readAll_write {content : Bytes} (hw : h.write p mode content = (.ok (), h'))
    (hr : h.readAll p ≠ .ok []) : h'.readAll p = .ok (mode.kept (h.held p) ++ content) := by
  have ht : h.exists? p = false ∨ h.isFile p = true := by
    rw [readAll, openForRead_all] at hr
    cases hl : h.locate p with
    | error e => exact .inl (by rw [exists?, hl]; rfl)
    | ok found =>
      obtain ⟨spot, node⟩ := found
      cases node with
      | file old => exact .inr (by rw [isFile, hl])
      | directory v es => cases isDirectory_eq_false_of_write hw hl
      | _ => exact absurd (by rw [hl]) hr
  obtain ⟨place, hplace, hchanged⟩ := write_file hw ht
  exact hplace.readAll_file hchanged.here

end Host

end FileShell

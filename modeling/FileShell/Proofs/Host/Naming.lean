/-
FileShell.Proofs.Host.Naming — the entry that a path names, and the one it
leads to.

A path names an entry (`Names`): its last name, in the directory that the
rest leads to. That is what making, removing and renaming work on; a link
there is not followed, and there need not be anything. A path leads to an
entry (`Reaches`) if walking all of it, links and all, ends there. That is
what reading and testing work on.

Where the entry that a path names is no link, the path leads to it
(`Names.reaches`). Both carry over to any machine that has the ways of
this one and starts the walk at the same spot (`Names.transfer`,
`walk_transfer`).
-/
import FileShell.Proofs.Host.Walking

namespace FileShell

namespace Host

open IoError (Cause)

variable {h h' : Host} {p : Path} {place : Place}

/-! ## Walks of whole paths -/

theorem origin_congr (hprocess : h'.process = h.process) (p : Path) :
    h'.origin p = h.origin p := by
  rw [origin, origin, hprocess]

/-- A walk that starts has some text, not too much of it, and starts at the
root or in the process directory. -/
theorem origin_eq_ok {start : Spot} (ho : h.origin p = .ok start) :
    p.text ≠ [] ∧ ¬ pathLimit < Utf8.size p.text ∧
      start = if p.isAbsolute then .inTree [] else h.process := by
  rw [origin] at ho
  split at ho
  · cases ho
  · next htext =>
    split at ho
    · cases ho
    · next hsize =>
      refine ⟨htext, hsize, ?_⟩
      split at ho
      · next habsolute => rw [if_pos habsolute]; exact (Except.ok.inj ho).symm
      · next hrelative => rw [if_neg hrelative]; exact (Except.ok.inj ho).symm

theorem walk_eq_ok_iff {x : Found} :
    h.walk false p = .ok x ↔
      ∃ start, h.origin p = .ok start ∧ Leads h.root linkLimit start (steps p) x := by
  rw [walk]
  cases h.origin p with
  | error e => simp
  | ok start => simp [leads_iff_follow]

/-- A walk that may make what it does not find ends nowhere else. -/
theorem walk_of_making {x : Found} (hw : h.walk true p = .ok x) : h.walk false p = .ok x := by
  rw [walk_eq_ok_iff]
  rw [walk] at hw
  split at hw
  · cases hw
  · next start hstart => exact ⟨start, hstart, leads_of_follow hw⟩

theorem walk_transfer (hways : h.root.WaysIn h'.root) (horigin : h'.origin p = h.origin p)
    {x : Found} (hw : h.walk false p = .ok x) (hend : h'.root.EndsAt x.spot) :
    h'.walk false p = .ok (.entry x.spot) := by
  obtain ⟨start, hstart, hleads⟩ := walk_eq_ok_iff.mp hw
  exact walk_eq_ok_iff.mpr ⟨start, horigin.trans hstart, hleads.transfer hways hend⟩

/-- A walk that does not end at a directory may as well be making what it
does not find. -/
theorem walk_making {x : Found} (hw : h.walk false p = .ok x)
    (hplain : ∀ spot, x = .entry spot → ¬ h.root.StandsAt spot) : h.walk true p = .ok x := by
  obtain ⟨start, hstart, hleads⟩ := walk_eq_ok_iff.mp hw
  rw [walk, hstart]
  exact hleads.follow_making hplain

/-- A relative path has steps. -/
theorem steps_ne_nil (htext : p.text ≠ []) (hrelative : p.isAbsolute = false) : steps p ≠ [] := by
  obtain ⟨text⟩ := p
  cases text with
  | nil => exact absurd rfl htext
  | cons c rest =>
    have hc : c ≠ '/' := by
      rintro rfl
      cases hrelative
    have hpiece : ∃ q qs, Text.pieces '/' (c :: rest) = (c :: q) :: qs := by
      rw [Text.pieces, if_neg hc]
      split
      · exact ⟨_, _, rfl⟩
      · exact ⟨_, _, rfl⟩
    obtain ⟨q, qs, hpieces⟩ := hpiece
    have hbody : (Text.pieces '/' (c :: rest)).filterMap Step.ofPiece? ≠ [] := by
      rw [hpieces, List.filterMap_cons]
      have hstep : ∃ step, Step.ofPiece? (c :: q) = some step := by
        simp only [Step.ofPiece?, List.cons_ne_nil, if_false]
        split
        · exact ⟨_, rfl⟩
        · split <;> exact ⟨_, rfl⟩
      obtain ⟨step, hstep⟩ := hstep
      simp [hstep]
    simp only [steps]
    split
    · simp
    · exact hbody

/-- A walk ends at no link, where the root is a directory. -/
theorem walk_endsAt (hroot : h.root.StandsAt (.inTree [])) {spot : Spot}
    (hw : h.walk false p = .ok (.entry spot)) : h.root.EndsAt spot := by
  obtain ⟨start, hstart, hleads⟩ := walk_eq_ok_iff.mp hw
  refine hleads.endsAt ?_
  obtain ⟨htext, _, rfl⟩ := origin_eq_ok hstart
  cases habsolute : p.isAbsolute with
  | true => exact hroot
  | false =>
    rw [habsolute] at hleads
    cases hsteps : steps p with
    | nil => exact absurd hsteps (steps_ne_nil htext habsolute)
    | cons step rest =>
      rw [hsteps] at hleads
      exact hleads.standsAt

/-! ## Where a path leads -/

/-- A path leads to the entry at a place. -/
def Reaches (h : Host) (p : Path) (place : Place) : Prop :=
  hasNul p = false ∧ h.walk false p = .ok (.entry (.inTree place))

theorem Reaches.unique {place' : Place} (hp : h.Reaches p place) (hp' : h.Reaches p place') :
    place = place' := by
  have := hp.2.symm.trans hp'.2
  cases this
  rfl

theorem Reaches.locate (hp : h.Reaches p place) {node : Node}
    (hnode : h.root.find? place = some node) : h.locate p = .ok (.inTree place, node) := by
  rw [Host.locate, hp.1, reach, hp.2]
  simp [Node.at?, hnode]
  rfl

theorem Reaches.readAll_file (hp : h.Reaches p place) {content : Bytes}
    (hface : h.root.face? place = some (.file content)) : h.readAll p = .ok content := by
  rw [readAll, openForRead_all, hp.locate (Node.find?_file_iff.mpr hface)]

theorem Reaches.readAll_device (hp : h.Reaches p place) {kind : Device}
    (hface : h.root.face? place = some (.device kind)) : h.readAll p = .ok [] := by
  rw [readAll, openForRead_all, hp.locate (Node.find?_device_iff.mpr hface)]

theorem Reaches.isFile (hp : h.Reaches p place) {content : Bytes}
    (hface : h.root.face? place = some (.file content)) : h.isFile p = true := by
  rw [Host.isFile, hp.locate (Node.find?_file_iff.mpr hface)]

/-- What is found at the end of a path is at the spot where its walk ends. -/
theorem walk_of_locate {spot : Spot} {node : Node} (hl : h.locate p = .ok (spot, node)) :
    hasNul p = false ∧ h.walk false p = .ok (.entry spot) ∧ h.root.at? spot = some node := by
  rw [Host.locate] at hl
  split at hl
  · cases hl
  · next hnul =>
    refine ⟨by simpa using hnul, ?_⟩
    rw [reach] at hl
    split at hl
    · cases hl
    · cases hl
    · next spot' hwalk =>
      split at hl
      · next node' hnode =>
        cases hl
        exact ⟨hwalk, hnode⟩
      · cases hl

theorem locate_of_walk (hnul : hasNul p = false) (hw : h.walk false p = .ok (.entry spot))
    (hnode : h.root.at? spot = some node) : h.locate p = .ok (spot, node) := by
  rw [Host.locate, hnul, reach, hw]
  simp only [hnode]
  rfl

/-- A path that leads to anything but a directory leads to a place. -/
theorem exists_reaches_of_locate {spot : Spot} {node : Node}
    (hl : h.locate p = .ok (spot, node)) (hplain : node.isDirectory = false) :
    ∃ place, h.Reaches p place ∧ h.root.find? place = some node := by
  obtain ⟨hnul, hwalk, hnode⟩ := walk_of_locate hl
  cases spot with
  | inTree place => exact ⟨place, ⟨hnul, hwalk⟩, hnode⟩
  | removed above =>
    obtain ⟨v, _, rfl⟩ := Option.map_eq_some_iff.mp hnode
    cases hplain

theorem exists_reaches_of_isFile (hf : h.isFile p = true) :
    ∃ place content, h.Reaches p place ∧ h.root.face? place = some (.file content) := by
  rw [Host.isFile] at hf
  split at hf
  · next spot content hl =>
    obtain ⟨place, hp, hnode⟩ := exists_reaches_of_locate hl rfl
    exact ⟨place, content, hp, Node.find?_file_iff.mp hnode⟩
  · cases hf

theorem exists_reaches_of_readAll {content : Bytes} (hr : h.readAll p = .ok content) :
    ∃ place node, h.Reaches p place ∧ h.root.find? place = some node := by
  rw [readAll, openForRead_all] at hr
  cases hl : h.locate p with
  | error e => simp [hl] at hr
  | ok found =>
    obtain ⟨spot, node⟩ := found
    cases node with
    | directory v es => simp [hl] at hr
    | _ =>
      obtain ⟨place, hp, hnode⟩ := exists_reaches_of_locate hl rfl
      exact ⟨place, _, hp, hnode⟩

/-! ## What a path names -/

/-- The place of the entry that a path names, whether or not there is one. -/
def Names (h : Host) (p : Path) (place : Place) : Prop :=
  ∃ directory n, h.parent p = .ok ⟨.inTree directory, .name n, false⟩ ∧
    ¬ nameLimit < Utf8.size n ∧ place = directory ++ [n]

theorem splitSteps_eq_iff {ss front : List Step} {n : Text} :
    splitSteps ss = (front, .name n, false) ↔ ss = front ++ [.name n] := by
  constructor
  · intro hs
    by_cases hslash : ss.getLast? = some .slash
    · simp only [splitSteps, hslash] at hs
      split at hs <;> simp at hs
    · simp only [splitSteps, hslash] at hs
      split at hs
      · next m hlast =>
        simp only [decide_false, if_false] at hs hlast
        obtain ⟨init, rfl⟩ := List.getLast?_eq_some_iff.mp hlast
        cases hs
        rw [List.dropLast_concat]
      all_goals simp at hs
  · rintro rfl
    simp [splitSteps]

theorem parent_eq_ok_iff {spot : Spot} {n : Text} :
    h.parent p = .ok ⟨spot, .name n, false⟩ ↔
      ∃ start front, h.origin p = .ok start ∧ steps p = front ++ [.name n] ∧
        Leads h.root linkLimit start (front ++ [.slash]) (.entry spot) := by
  constructor
  · intro hp
    rw [parent] at hp
    split at hp
    · cases hp
    · next start hstart =>
      rcases hsplit : splitSteps (steps p) with ⟨front, ending, slash⟩
      simp only [hsplit, followToDirectory] at hp
      split at hp
      · cases hp
      · next directory hdirectory =>
        cases hp
        refine ⟨start, front, hstart, splitSteps_eq_iff.mp hsplit, ?_⟩
        split at hdirectory
        · cases hdirectory
        · cases hdirectory
        · next hfollow =>
          cases hdirectory
          exact leads_of_follow hfollow
  · rintro ⟨start, front, hstart, hsteps, hfront⟩
    rw [parent, hstart]
    simp only [splitSteps_eq_iff.mpr hsteps, followToDirectory, follow_of_leads hfront]

/-- The directory of the entry that a path names, and the walk there. -/
theorem Names.leads (hn : h.Names p place) :
    ∃ directory n start front, place = directory ++ [n] ∧ ¬ nameLimit < Utf8.size n ∧
      h.origin p = .ok start ∧ steps p = front ++ [.name n] ∧
        Leads h.root linkLimit start (front ++ [.slash]) (.entry (.inTree directory)) := by
  obtain ⟨directory, n, hparent, hsize, rfl⟩ := hn
  obtain ⟨start, front, hstart, hsteps, hfront⟩ := parent_eq_ok_iff.mp hparent
  exact ⟨directory, n, start, front, rfl, hsize, hstart, hsteps, hfront⟩

theorem Names.unique {place' : Place} (hn : h.Names p place) (hn' : h.Names p place') :
    place = place' := by
  obtain ⟨directory, n, hparent, _, rfl⟩ := hn
  obtain ⟨directory', n', hparent', _, rfl⟩ := hn'
  cases hparent.symm.trans hparent'
  rfl

/-- What a path names is a name in a directory. -/
theorem Names.parent (hn : h.Names p place) :
    ∃ front a v, h.parent p = .ok ⟨.inTree front, .name a, false⟩ ∧
      ¬ nameLimit < Utf8.size a ∧ place = front ++ [a] ∧
      h.root.face? front = some (.directory v) := by
  obtain ⟨front, a, hparent, hsize, rfl⟩ := hn
  obtain ⟨_, _, _, _, hfront⟩ := parent_eq_ok_iff.mp hparent
  obtain ⟨v, hv⟩ := Node.standsAt_inTree.mp hfront.append.1
  exact ⟨front, a, v, hparent, hsize, rfl, hv⟩

/-- Where a path names something, the root is a directory. -/
theorem Names.standsAt_root (hn : h.Names p place) : h.root.StandsAt (.inTree []) := by
  obtain ⟨_, _, v, _, _, _, hv⟩ := hn.parent
  exact (Node.standsAt_inTree.mpr ⟨v, hv⟩).atRoot

/-- A walk ends at the entry that the path names, unless that is a link. -/
theorem Names.walk_entry (hn : h.Names p place) {f : Face}
    (hface : h.root.face? place = some f) (hlink : ∀ target, f ≠ .link target) :
    h.walk false p = .ok (.entry (.inTree place)) := by
  obtain ⟨directory, n, start, front, rfl, hsize, hstart, hsteps, hfront⟩ := hn.leads
  obtain ⟨hd, _, happend⟩ := hfront.append
  refine walk_eq_ok_iff.mpr ⟨start, hstart, ?_⟩
  rw [hsteps]
  exact happend _ _ (.enter hd hsize hface hlink .arrived)

/-- A walk to a name that is free ends in the directory that lacks it. -/
theorem Names.walk_vacant (hn : h.Names p place) (hnone : h.root.face? place = none) :
    ∃ directory n, h.walk false p = .ok (.vacant directory n) := by
  obtain ⟨directory, n, start, front, rfl, hsize, hstart, hsteps, hfront⟩ := hn.leads
  obtain ⟨hd, _, happend⟩ := hfront.append
  refine ⟨directory, n, walk_eq_ok_iff.mpr ⟨start, hstart, ?_⟩⟩
  rw [hsteps]
  exact happend _ _ (.missing hd hsize hnone)

/-- A path leads to the entry it names, unless that is a link. -/
theorem Names.reaches (hn : h.Names p place) (hnul : hasNul p = false) {f : Face}
    (hface : h.root.face? place = some f) (hlink : ∀ target, f ≠ .link target) :
    h.Reaches p place :=
  ⟨hnul, hn.walk_entry hface hlink⟩

/-- A path that names an entry which is not there leads to nothing. -/
theorem Names.exists?_eq_false (hn : h.Names p place) (hnone : h.root.face? place = none) :
    h.exists? p = false := by
  obtain ⟨directory, n, hwalk⟩ := hn.walk_vacant hnone
  cases hl : h.locate p with
  | error e => simp [Host.exists?, hl, Except.isOk, Except.toBool]
  | ok found => cases hwalk.symm.trans (walk_of_locate hl).2.1

theorem Names.transfer (hn : h.Names p place) (hways : h.root.WaysIn h'.root)
    (horigin : h'.origin p = h.origin p) : h'.Names p place := by
  obtain ⟨directory, n, start, front, rfl, hsize, hstart, hsteps, hfront⟩ := hn.leads
  have hend : h'.root.EndsAt (.inTree directory) := (hways.standsAt hfront.append.1).endsAt
  exact ⟨directory, n, parent_eq_ok_iff.mpr
    ⟨start, front, horigin.trans hstart, hsteps, hfront.transfer hways hend⟩, hsize, rfl⟩

/-- A path that is walked to its end names an entry there, if it ends in a
name anywhere. -/
theorem Names.of_walk (hn : h.Names p place) {x : Found} (hw : h'.walk false p = .ok x) :
    ∃ place', h'.Names p place' := by
  obtain ⟨_, n, _, front, _, hsize, _, hsteps, _⟩ := hn.leads
  obtain ⟨start, hstart, hleads⟩ := walk_eq_ok_iff.mp hw
  rw [hsteps] at hleads
  obtain ⟨spot, left, hfront, hname⟩ := hleads.split
  obtain ⟨directory, rfl, -⟩ := hname.of_name
  exact ⟨_, directory, n, parent_eq_ok_iff.mpr ⟨start, front, hstart, hsteps, hfront⟩, hsize, rfl⟩

/-! ## The process directory -/

/-- A removed entry that is no directory was under nobody's feet. -/
theorem without_of_standsAt {root : Node} {here : Spot} (hd : root.StandsAt here)
    {gone : Place} (hgone : ¬ root.IsDirectoryAt gone) : here.without gone = here := by
  induction here with
  | inTree place =>
    obtain ⟨v, hv⟩ := Node.standsAt_inTree.mp hd
    have hne : place ≠ gone := by
      rintro rfl
      exact hgone ⟨_, hv, rfl⟩
    rw [Spot.without, if_neg hne]
  | removed above ih => rw [Spot.without, ih hd]

/-- A moved entry that is no directory takes nobody along. -/
theorem moved_of_standsAt {root : Node} {here : Spot} (hd : root.StandsAt here)
    {source : Place} (hsource : ¬ root.IsDirectoryAt source) (target : Place) :
    here.moved source target = here := by
  induction here with
  | inTree place =>
    obtain ⟨v, hv⟩ := Node.standsAt_inTree.mp hd
    have hoff : ¬ source <+: place := by
      intro hbelow
      by_cases hne : place = source
      · exact hsource ⟨_, hne ▸ hv, rfl⟩
      · obtain ⟨name, rest, rfl⟩ := Node.exists_below_of_prefix hbelow hne
        rw [Node.face?_below hsource] at hv
        cases hv
    rw [Spot.moved, if_neg (by simpa using hoff)]
  | removed above ih => rw [Spot.moved, ih hd]

/-- A path that names an entry starts its walk where it did, if nobody who
stands in a directory was moved. -/
theorem Names.origin_eq (hn : h.Names p place)
    (hprocess : h.root.StandsAt h.process → h'.process = h.process) :
    h'.origin p = h.origin p := by
  obtain ⟨directory, n, start, front, rfl, hsize, hstart, hsteps, hfront⟩ := hn.leads
  have hstands : h.root.StandsAt start := by
    cases front <;> exact hfront.standsAt
  cases habsolute : p.isAbsolute with
  | true => simp [origin, habsolute]
  | false =>
    have hhere : start = h.process := by
      obtain ⟨_, _, rfl⟩ := origin_eq_ok hstart
      rw [habsolute, if_neg (by simp)]
    exact origin_congr (hprocess (hhere ▸ hstands)) p

end Host

end FileShell

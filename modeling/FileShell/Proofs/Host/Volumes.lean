/-
FileShell.Proofs.Host.Volumes — a tree, whatever volumes it lies on.

`Node.SameTree` compares two trees by names, kinds, bytes and the targets
of links, and leaves out which volume a directory is on. A walk never asks
for a volume (`Leads.sameTree`), so in trees that are the same a path names
the same entry (`Names.sameTree`).

`Host.onVolume` is a machine with its whole tree on one volume: the same
tree (`sameTree_onVolume`), and wherever one stands the same volume
(`volumeOf_onVolume`).
-/
import FileShell.Proofs.Host.Naming

namespace FileShell

namespace Host

/-! ## Trees without their volumes -/

/-- A face without the volume that a directory is on. -/
def Face.bare : Face → Face
  | .directory _ => .directory 0
  | f => f

/-- Two trees hold the same, on whatever volumes. -/
def Node.SameTree (root root' : Node) : Prop :=
  ∀ q, (root.face? q).map Face.bare = (root'.face? q).map Face.bare

section

variable {root root' root'' : Node} {q : Place} {here : Spot}

theorem Node.SameTree.symm (hsame : root.SameTree root') : root'.SameTree root :=
  fun q => (hsame q).symm

theorem Node.SameTree.trans (hsame : root.SameTree root') (hsame' : root'.SameTree root'') :
    root.SameTree root'' :=
  fun q => (hsame q).trans (hsame' q)

theorem Node.SameTree.directory (hsame : root.SameTree root') {v : Nat}
    (hf : root.face? q = some (.directory v)) : ∃ v', root'.face? q = some (.directory v') := by
  have hq := hsame q
  rw [hf, Option.map_some] at hq
  obtain ⟨f', hf', hbare⟩ := Option.map_eq_some_iff.mp hq.symm
  cases f' with
  | directory v' => exact ⟨v', hf'⟩
  | _ => cases hbare

/-- What is no directory is the same in both. -/
theorem Node.SameTree.face?_eq (hsame : root.SameTree root') {o : Option Face}
    (ho : root.face? q = o) (hplain : ∀ f, o = some f → f.isDirectory = false) :
    root'.face? q = o := by
  have hq := hsame q
  rw [ho] at hq
  cases o with
  | none => exact Option.map_eq_none_iff.mp hq.symm
  | some f =>
    obtain ⟨f', hf', hbare⟩ := Option.map_eq_some_iff.mp hq.symm
    have hf := hplain f rfl
    cases f <;> cases f' <;> cases hbare <;> first | exact hf' | cases hf

theorem Node.SameTree.isDirectoryAt (hsame : root.SameTree root') (hd : root.IsDirectoryAt q) :
    root'.IsDirectoryAt q := by
  obtain ⟨f, hf, hdirectory⟩ := hd
  cases f with
  | directory v =>
    obtain ⟨v', hf'⟩ := hsame.directory hf
    exact ⟨_, hf', rfl⟩
  | _ => cases hdirectory

theorem Node.SameTree.standsAt (hsame : root.SameTree root') (hd : root.StandsAt here) :
    root'.StandsAt here := by
  induction here with
  | inTree place =>
    obtain ⟨v, hv⟩ := Node.standsAt_inTree.mp hd
    exact Node.standsAt_inTree.mpr (hsame.directory hv)
  | removed above ih => exact ih hd

/-- A walk goes the same way in the same tree. -/
theorem Leads.sameTree (hsame : root.SameTree root') {links : Nat} {ss : List Step} {x : Found}
    (h : Leads root links here ss x) : Leads root' links here ss x := by
  induction h with
  | arrived => exact .arrived
  | stay hstep hd _ ih => exact .stay hstep (hsame.standsAt hd) ih
  | up hd _ ih => exact .up (hsame.standsAt hd) ih
  | missing hd hsize hnone =>
    exact .missing (hsame.standsAt hd) hsize (hsame.face?_eq hnone fun _ => nofun)
  | @enter links place n rest x f hd hsize hface hlink _ ih =>
    cases hdirectory : f.isDirectory with
    | true =>
      obtain ⟨f', hface', hdirectory'⟩ := hsame.isDirectoryAt ⟨f, hface, hdirectory⟩
      refine .enter (hsame.standsAt hd) hsize hface' ?_ ih
      rintro target rfl
      cases hdirectory'
    | false =>
      have hface' := hsame.face?_eq hface fun _ he => Option.some.inj he ▸ hdirectory
      exact .enter (hsame.standsAt hd) hsize hface' hlink ih
  | detour hd hsize hface htext _ ih =>
    have hface' := hsame.face?_eq hface fun _ he => Option.some.inj he ▸ rfl
    exact .detour (hsame.standsAt hd) hsize hface' htext ih

end

/-- A path names the same entry in the same tree. -/
theorem Names.sameTree {h h' : Host} {p : Path} {place : Place} (hn : h.Names p place)
    (hsame : h.root.SameTree h'.root) (hprocess : h'.process = h.process) : h'.Names p place := by
  obtain ⟨directory, n, start, front, rfl, hsize, hstart, hsteps, hfront⟩ := hn.leads
  have hstart' : h'.origin p = .ok start := (origin_congr hprocess p).trans hstart
  exact ⟨directory, n, parent_eq_ok_iff.mpr ⟨start, front, hstart', hsteps, hfront.sameTree hsame⟩,
    hsize, rfl⟩

/-! ## Everything on one volume -/

mutual

/-- A tree with all its directories on one volume. -/
def Node.onVolume (v : Nat) : Node → Node
  | .directory _ es => .directory v (Entries.onVolume v es)
  | node => node

/-- Entries with all directories among and below them on one volume. -/
def Entries.onVolume (v : Nat) : List (Text × Node) → List (Text × Node)
  | [] => []
  | (name, node) :: rest => (name, node.onVolume v) :: Entries.onVolume v rest

end

/-- A machine with its tree on one volume. -/
def onVolume (h : Host) (v : Nat) : Host := { h with root := h.root.onVolume v }

theorem Entries.get?_onVolume (v : Nat) (es : Entries) (name : Text) :
    get? (Entries.onVolume v es) name = (get? es name).map (Node.onVolume v) := by
  induction es with
  | nil => rfl
  | cons e rest ih =>
    obtain ⟨n, node⟩ := e
    simp only [get?] at ih ⊢
    rw [Entries.onVolume, List.lookup_cons, List.lookup_cons]
    cases name == n with
    | true => rfl
    | false => exact ih

namespace Node

theorem child?_onVolume (v : Nat) (node : Node) (name : Text) :
    (node.onVolume v).child? name = (node.child? name).map (onVolume v) := by
  cases node with
  | directory u es => exact Entries.get?_onVolume v es name
  | _ => rfl

theorem find?_onVolume (v : Nat) (root : Node) (q : Place) :
    (root.onVolume v).find? q = (root.find? q).map (onVolume v) := by
  induction q generalizing root with
  | nil => rw [find?_nil, find?_nil, Option.map_some]
  | cons name rest ih =>
    rw [find?_cons, find?_cons, child?_onVolume]
    cases root.child? name with
    | none => rfl
    | some node => exact ih node

theorem bare_face_onVolume (v : Nat) (node : Node) :
    (node.onVolume v).face.bare = node.face.bare := by
  cases node <;> rfl

theorem sameTree_onVolume (v : Nat) (root : Node) : root.SameTree (root.onVolume v) := by
  intro q
  rw [face?, face?, find?_onVolume]
  cases root.find? q with
  | none => rfl
  | some node => exact congrArg some (bare_face_onVolume v node).symm

/-- Wherever one stands, it is the one volume. -/
theorem volumeOf_onVolume {v u : Nat} {root : Node} {here : Spot}
    (hu : (root.onVolume v).volumeOf here = some u) : u = v := by
  induction here with
  | inTree place =>
    have hface := volumeAt_eq_some_iff.mp hu
    rw [face?, find?_onVolume] at hface
    cases hnode : root.find? place with
    | none =>
      rw [hnode] at hface
      cases hface
    | some node =>
      rw [hnode] at hface
      cases node <;> cases hface
      rfl
  | removed above ih => exact ih hu

end Node

end Host

end FileShell

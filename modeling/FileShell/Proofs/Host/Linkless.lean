/-
FileShell.Proofs.Host.Linkless — walks in a tree without symbolic links.

Where nothing is a link, the place that a walk leads to can be told from
its steps alone: a name goes down, a `..` goes up (`Step.land`,
`Leads.lands`). Folding a path does the same to its names
(`fold_eq_land`), so the two stay in step: at the root neither goes
further up, and everywhere else a `..` takes away the name that the walk
has come by.

What is reached once is reached by its own names too (`HasAt.leads`):
there is something at that place, so there is a directory at each place on
the way, and the walk has looked up all of its names. So the folded path
leads where the written one does, whatever is there. The converse does not
hold: the written path asks for more directories on its way.
-/
import FileShell.Proofs.Host.Folding
import FileShell.Proofs.Path.Congruence

namespace FileShell

namespace Host

open FileShell.Path (Component IsOrdinary foldStep)

/-- No entry of a tree is a symbolic link. -/
def Node.Linkless (root : Node) : Prop := ∀ place target, root.face? place ≠ some (.link target)

theorem Node.linkless_file (content : Bytes) : (Node.file content).Linkless := by
  intro place target hlink
  cases place with
  | nil => cases hlink
  | cons n rest => cases hlink

/-- A directory without links in it is a tree without links. -/
theorem Node.linkless_directory {v : Nat} {es : Entries} (h : ∀ e ∈ es, e.2.Linkless) :
    (Node.directory v es).Linkless := by
  intro place target hlink
  cases place with
  | nil => cases hlink
  | cons n rest =>
    rw [face?, find?_cons, child?] at hlink
    cases hget : Entries.get? es n with
    | none =>
      rw [hget] at hlink
      cases hlink
    | some node =>
      rw [hget] at hlink
      obtain ⟨front, back, rfl, -⟩ := List.lookup_eq_some_iff.mp hget
      exact h (n, node) (by simp) rest target hlink

/-- The place that a step leads to from a place, where nothing is a link. -/
def Step.land (place : Place) : Step → Place
  | .name n => place ++ [n]
  | .up => place.dropLast
  | .stay | .slash => place

/-! ## Folding as a walk -/

theorem foldl_land_filter (ss : List Step) (place : Place) :
    (ss.filter Step.goes).foldl Step.land place = ss.foldl Step.land place := by
  induction ss generalizing place with
  | nil => rfl
  | cons s ss ih => cases s <;> exact ih _

/-- Components are folded onto the names of a place as a walk goes on from it. -/
theorem foldl_foldStep_place {cs : List Component} (hcs : ∀ c ∈ cs, c.IsStep) (place : Place) :
    cs.foldl foldStep ((place.map .name).reverse ++ [.root]) =
      (((cs.filterMap stepOf?).foldl Step.land place).map .name).reverse ++ [.root] := by
  induction cs generalizing place with
  | nil => rfl
  | cons c cs ih =>
    obtain ⟨hc, hrest⟩ := List.forall_mem_cons.mp hcs
    rcases hc with rfl | ⟨n, -, rfl⟩
    · have hup : foldStep ((place.map .name).reverse ++ [.root]) .parent =
          (place.dropLast.map .name).reverse ++ [.root] := by
        rcases List.eq_nil_or_concat place with rfl | ⟨init, last, rfl⟩
        · rfl
        · simp [foldStep]
      rw [List.foldl_cons, hup]
      exact ih hrest _
    · have hdown : foldStep ((place.map .name).reverse ++ [.root]) (.name n) =
          ((place ++ [n]).map .name).reverse ++ [.root] := by
        simp [foldStep]
      rw [List.foldl_cons, hdown]
      exact ih hrest _

/-- An absolute path is folded to the names of the place that its steps lead to. -/
theorem fold_eq_land {p : Path} (h : p.isAbsolute = true) :
    Path.fold p.components = .root :: ((steps p).foldl Step.land []).map .name := by
  have hstack : p.stack = (((steps p).foldl Step.land []).map .name).reverse ++ [.root] := by
    rw [Path.stack, if_pos h, ← foldl_land_filter, filter_steps]
    exact foldl_foldStep_place (fun c hc => Path.isStep_of_mem_body hc) []
  rw [Path.fold_components, hstack]
  simp

/-! ## Walks by names -/

variable {root : Node} {links : Nat} {front place : Place} {ss : List Step} {spot : Spot}

/-- There is an entry at a place, and all of its names can be looked up. -/
structure Node.HasAt (root : Node) (place : Place) : Prop where
  face : ∃ f, root.face? place = some f
  short : ∀ n ∈ place, ¬ nameLimit < Utf8.size n

theorem Node.hasAt_root : root.HasAt [] :=
  ⟨⟨root.face, by rw [face?, find?_nil, Option.map_some]⟩, by simp⟩

theorem Node.HasAt.up (h : root.HasAt place) (hd : root.StandsAt (.inTree place)) :
    root.HasAt place.dropLast := by
  obtain ⟨v, hv⟩ := Node.standsAt_inTree.mp hd.up
  exact ⟨⟨_, hv⟩, fun n hn => h.short n (List.dropLast_subset _ hn)⟩

section

variable (hlinks : root.Linkless)
include hlinks

/-- A walk leads to the place that its steps tell. -/
theorem Leads.lands (h : Leads root links (.inTree front) ss (.entry spot))
    (hfront : root.HasAt front) :
    spot = .inTree (ss.foldl Step.land front) ∧ root.HasAt (ss.foldl Step.land front) := by
  generalize hhere : Spot.inTree front = here at h
  generalize hend : Found.entry spot = x at h
  induction h generalizing front with
  | arrived =>
    obtain rfl := Found.entry.inj hend
    exact ⟨hhere.symm, hfront⟩
  | stay hstep _ _ ih =>
    rcases hstep with rfl | rfl <;> exact ih hfront hhere hend
  | up hd _ ih =>
    subst hhere
    exact ih (hfront.up hd) rfl hend
  | missing => cases hend
  | @enter _ place n _ _ f _ hsize hface _ _ ih =>
    cases hhere
    have hshort : ∀ m ∈ place ++ [n], ¬ nameLimit < Utf8.size m :=
      List.forall_mem_append.mpr ⟨hfront.short, by simpa using hsize⟩
    exact ih ⟨⟨f, hface⟩, hshort⟩ rfl hend
  | detour _ _ hface => exact absurd hface (hlinks _ _)

/-- An entry is reached by the names of its place. -/
theorem Node.HasAt.leads (h : root.HasAt (front ++ place)) :
    Leads root links (.inTree front) (place.map .name) (.entry (.inTree (front ++ place))) := by
  induction place generalizing front with
  | nil =>
    rw [List.append_nil]
    exact .arrived
  | cons n place ih =>
    have hsplit : front ++ n :: place = (front ++ [n]) ++ place := by simp
    obtain ⟨f, hf⟩ := h.face
    have hentry : ∃ g, root.face? (front ++ [n]) = some g := by
      cases place with
      | nil => exact ⟨f, hf⟩
      | cons m place =>
        obtain ⟨v, hv⟩ := Node.standsAt_inTree.mp (Node.standsAt_of_below (hsplit ▸ hf))
        exact ⟨_, hv⟩
    obtain ⟨g, hg⟩ := hentry
    refine .enter (Node.standsAt_of_below hf) (h.short n (by simp)) hg ?_ ?_
    · rintro target rfl
      exact hlinks _ _ hg
    · rw [hsplit] at h ⊢
      exact ih h

end

/-! ## Folded paths -/

section

variable {h : Host} {p : Path} (hlinks : h.root.Linkless) (habsolute : p.isAbsolute = true)
include hlinks habsolute

/-- Where an absolute path leads, the names that are left when it is folded
lead as well. -/
theorem leads_names_of_leads (hl : Leads h.root links (.inTree []) (steps p) (.entry spot)) :
    ∃ names : List Text, (∀ n ∈ names, IsOrdinary n) ∧
      Path.fold p.components = .root :: names.map .name ∧
      Leads h.root links (.inTree []) (names.map .name) (.entry spot) := by
  obtain ⟨names, hnames, hfold⟩ := Path.fold_of_isAbsolute habsolute
  obtain ⟨rfl, hat⟩ := hl.lands hlinks Node.hasAt_root
  have hplace : names = (steps p).foldl Step.land [] := by
    have hsame := hfold.symm.trans (fold_eq_land habsolute)
    exact List.map_injective_iff.mpr (fun _ _ => Component.name.inj) (List.cons.inj hsame).2
  refine ⟨names, hnames, hfold, ?_⟩
  rw [← hplace] at hat ⊢
  have hall : Leads h.root links (.inTree []) (names.map .name) (.entry (.inTree ([] ++ names))) :=
    Node.HasAt.leads hlinks hat
  exact hall

/-- Folding changes nothing about where an absolute path leads. -/
theorem locate_normal_of_linkless {node : Node} (hl : h.locate p = .ok (spot, node)) :
    h.locate p.normal = .ok (spot, node) := by
  obtain ⟨hnul, hwalk, hnode⟩ := walk_of_locate hl
  obtain ⟨start, hstart, hleads⟩ := walk_eq_ok_iff.mp hwalk
  obtain ⟨_, hsize, rfl⟩ := origin_eq_ok hstart
  rw [if_pos habsolute] at hleads
  obtain ⟨names, hnames, hfold, hend⟩ := leads_names_of_leads hlinks habsolute hleads
  exact locate_folded hnames hfold habsolute hnul hsize hend hnode

end

/-- Where nothing is a link, an argument that leads somewhere as it is
written, taken from an absolute directory, leads to the same entry when it
is resolved: as a walk from the root, and as a path that the system is
given, which may be too long to be walked or hold a NUL. -/
theorem locate_resolve_of_linkless {h : Host} (hlinks : h.root.Linkless) {dir : Path}
    (hdir : dir.isAbsolute = true) (arg : Text) :
    (∀ links spot, follow h.root false links (.inTree []) (steps (dir.join ⟨arg⟩)) =
        .ok (.entry spot) →
      follow h.root false links (.inTree []) (steps (dir.resolve arg)) = .ok (.entry spot)) ∧
    (∀ spot node, h.locate (dir.join ⟨arg⟩) = .ok (spot, node) →
      h.locate (dir.resolve arg) = .ok (spot, node)) := by
  have habsolute := Path.isAbsolute_join hdir ⟨arg⟩
  refine ⟨fun links spot hl => ?_, fun spot node => locate_normal_of_linkless hlinks habsolute⟩
  obtain ⟨names, hnames, hfold, hend⟩ :=
    leads_names_of_leads hlinks habsolute (leads_iff_follow.mpr hl)
  rw [← leads_iff_follow, Path.resolve, steps_normal hnames hfold]
  exact hend

/-- A file is reached by an argument that goes above the root and down
again, and by what it resolves to. -/
theorem locate_resolve_of_linkless_above_root :
    let h : Host := ⟨.directory 0 [(['d'], .directory 0 [(['f'], .file [])])], .inTree []⟩
    let p : Path := Path.resolve ⟨['/', 'd']⟩ "./..//../d/f".toList
    follow h.root false 0 (.inTree []) (steps p) = .ok (.entry (.inTree [['d'], ['f']])) ∧
      h.locate p = .ok (.inTree [['d'], ['f']], .file []) := by
  intro h p
  have hlinks : h.root.Linkless := Node.linkless_directory <| by
    simpa using Node.linkless_directory (by simpa using Node.linkless_file [])
  obtain ⟨hfollow, hlocate⟩ :=
    locate_resolve_of_linkless hlinks (show Path.isAbsolute ⟨['/', 'd']⟩ = true from rfl)
      "./..//../d/f".toList
  exact ⟨hfollow 0 _ rfl, hlocate _ _ rfl⟩

end Host

end FileShell

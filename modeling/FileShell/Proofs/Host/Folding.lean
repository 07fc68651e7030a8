/-
FileShell.Proofs.Host.Folding — walking a path, and walking what is left
of it once `.` and `..` are folded.

Folding takes a name and the `..` behind it away together. A walk goes back
from wherever the name has led, so the two agree only as long as each `..`
leads back to where the name was looked up (`StepsBack`). A link to
somewhere else in front of a `..` breaks this; a name that is no link never
does (`leadsBack_of_no_link`).

* A walk that ends in a directory cares for names and `..` only
  (`Leads.congr_goes`), and those are what the components of a path ask for
  (`filter_steps`). So it does not matter how a path is written.
* Folding is followed component by component: `Midway` is what holds
  between two of them, with a step lemma for a name and for a `..`, and
  `Midway.finish` is the whole path. The folded names lead to where the
  walk stands, and with the links that are still to come they take no more
  links than the walk.
* `locate_normal` and `locate_of_absolute` are what comes of it: the folded
  path leads where the written one does, and the written one where it leads
  when it is made absolute.
-/
import Mathlib.Data.List.Basic
import Mathlib.Data.List.Flatten
import FileShell.Proofs.Host.Naming
import FileShell.Proofs.Path.Components

namespace FileShell

namespace Host

open FileShell.Path (Component IsOrdinary)

/-! ## Steps that go somewhere -/

/-- Whether a step goes elsewhere, or only asks for a directory. -/
def Step.goes : Step → Bool
  | .name _ | .up => true
  | .stay | .slash => false

/-- The step that a component asks for. -/
def stepOf? : Component → Option Step
  | .name n => some (.name n)
  | .parent => some .up
  | .root | .current => none

theorem goes_ofPiece? (piece : Text) :
    (Step.ofPiece? piece).filter Step.goes = (Path.ofPiece? piece).bind stepOf? := by
  by_cases hempty : piece = []
  · subst hempty
    rfl
  · by_cases hdot : piece = ['.']
    · subst hdot
      rfl
    · rw [Step.ofPiece?, Path.ofPiece?, Path.isFiller]
      simp only [hempty, hdot, decide_false, Bool.or_false, if_false]
      split <;> rfl

/-- The steps of a path that go somewhere are those of its components. -/
theorem filter_steps (p : Path) :
    (steps p).filter Step.goes = p.body.filterMap stepOf? := by
  have hbody : ((Text.pieces '/' p.text).filterMap Step.ofPiece?).filter Step.goes =
      p.body.filterMap stepOf? := by
    rw [Path.body, List.filter_filterMap, List.filterMap_filterMap]
    simp only [goes_ofPiece?]
  simp only [steps]
  split
  · rw [List.filter_append, hbody]
    exact List.append_nil _
  · exact hbody

theorem filter_filterMap_stepOf? (cs : List Component) :
    (cs.filterMap stepOf?).filter Step.goes = cs.filterMap stepOf? := by
  rw [List.filter_filterMap]
  congr 1
  funext c
  cases c <;> rfl

/-- The steps of a path of ordinary names are the names. -/
theorem steps_ofComponents {names : List Text} (h : ∀ n ∈ names, IsOrdinary n) :
    steps (Path.ofComponents (.root :: names.map .name)) = names.map .name := by
  have hstep : ∀ {n}, IsOrdinary n → Step.ofPiece? n = some (.name n) := fun hn => by
    rw [Step.ofPiece?, if_neg hn.1, if_neg hn.2.1, if_neg hn.2.2.1]
  have hbody : (Text.pieces '/' ('/' :: Text.joined '/' names)).filterMap Step.ofPiece? =
      names.map .name := by
    by_cases hne : names = []
    · subst hne
      rfl
    · have hpieces : Text.pieces '/' ('/' :: Text.joined '/' names) = [] :: names := by
        rw [Text.pieces, if_pos rfl, Path.pieces_names hne h]
      rw [hpieces]
      exact List.filterMap_eq_map_iff_forall_eq_some.mpr fun n hn => hstep (h n hn)
  simp only [steps, Path.text_ofComponents, hbody]
  rw [if_neg]
  rintro ⟨hne, hlast⟩
  obtain ⟨init, last, rfl⟩ := (List.eq_nil_or_concat names).resolve_left (by simpa using hne)
  rw [List.concat_eq_append] at hlast h
  have hordinary : IsOrdinary last := h last (by simp)
  have hend : last.getLast? = some '/' := by
    rw [List.getLast?_cons, Text.getLast?_joined hordinary.1] at hlast
    cases hc : last.getLast? with
    | none => exact absurd (List.getLast?_eq_none_iff.mp hc) hordinary.1
    | some c => rwa [hc] at hlast
  exact hordinary.2.2.2 (List.mem_of_getLast? hend)

theorem origin_ofComponents {h : Host} {cs : List Component}
    (hsize : ¬ pathLimit < Utf8.size (Path.ofComponents (.root :: cs)).text) :
    h.origin (Path.ofComponents (.root :: cs)) = .ok (.inTree []) := by
  rw [origin, if_neg (by simp [Path.ofComponents]), if_neg hsize,
    if_pos (by simp [Path.ofComponents, Path.isAbsolute])]

section Walks

variable {root : Node} {links : Nat} {here spot : Spot} {ss ss' rest : List Step} {x : Found}

/-- Steps that go nowhere can be taken wherever there is a directory. -/
theorem Leads.idle {idle : List Step} (hidle : ∀ s ∈ idle, ¬ s.goes = true)
    (hd : root.StandsAt here) (h : Leads root links here rest x) :
    Leads root links here (idle ++ rest) x := by
  induction idle with
  | nil => exact h
  | cons s idle ih =>
    obtain ⟨hs, hidle⟩ := List.forall_mem_cons.mp hidle
    have hstep : s = .stay ∨ s = .slash := by
      cases s with
      | stay => exact .inl rfl
      | slash => exact .inr rfl
      | name n => exact absurd rfl hs
      | up => exact absurd rfl hs
    exact .stay hstep hd (ih hidle)

/-- Of the steps of a walk that ends in a directory, only those matter that
go somewhere. -/
theorem Leads.congr_goes (h : Leads root links here ss (.entry spot)) (hd : root.StandsAt spot)
    (hgoes : ss'.filter Step.goes = ss.filter Step.goes) :
    Leads root links here ss' (.entry spot) := by
  generalize hend : Found.entry spot = x at h ⊢
  induction h generalizing ss' with
  | arrived =>
    cases hend
    have hidle : ∀ s ∈ ss', ¬ s.goes = true := List.filter_eq_nil_iff.mp hgoes
    simpa using Leads.idle hidle hd .arrived
  | stay hstep hd' _ ih =>
    refine ih ?_ hend
    rcases hstep with rfl | rfl <;> exact hgoes
  | up hd' h ih =>
    obtain ⟨idle, rest', rfl, hidle, _, hrest⟩ := List.filter_eq_cons_iff.mp hgoes
    exact .idle hidle hd' (.up hd' (ih hrest hend))
  | missing => cases hend
  | enter hd' hsize hface hlink h ih =>
    obtain ⟨idle, rest', rfl, hidle, _, hrest⟩ := List.filter_eq_cons_iff.mp hgoes
    exact .idle hidle hd' (.enter hd' hsize hface hlink (ih hrest hend))
  | @detour links place n target rest x hd' hsize hface htext h ih =>
    obtain ⟨idle, rest', rfl, hidle, _, hrest⟩ := List.filter_eq_cons_iff.mp hgoes
    have hdetour : (steps target ++ rest').filter Step.goes =
        (steps target ++ rest).filter Step.goes := by
      rw [List.filter_append, List.filter_append, hrest]
    exact .idle hidle hd' (.detour hd' hsize hface htext (ih hdetour hend))

/-- The names of a directory lead to it, and the walk goes on from there. -/
theorem Leads.through {front place : Place} (hd : root.StandsAt (.inTree (front ++ place)))
    (h : Leads root links (.inTree front) (place.map .name ++ rest) x) :
    Leads root links (.inTree (front ++ place)) rest x := by
  induction place generalizing front with
  | nil => simpa using h
  | cons n place ih =>
    -- Every name on the way is that of a directory, so it is entered.
    have hdirectory : ∃ v, root.face? (front ++ [n]) = some (.directory v) := by
      refine Node.standsAt_inTree.mp ?_
      cases place with
      | nil => exact hd
      | cons m place =>
        obtain ⟨v, hv⟩ := Node.standsAt_inTree.mp hd
        have hbelow : root.face? (front ++ [n] ++ m :: place) = some (.directory v) := by
          simpa using hv
        exact Node.standsAt_of_below hbelow
    obtain ⟨v, hv⟩ := hdirectory
    have happend : front ++ n :: place = front ++ [n] ++ place := by simp
    rw [happend] at hd ⊢
    rw [List.map_cons, List.cons_append] at h
    generalize hss : place.map Step.name ++ rest = ss at h
    cases h with
    | stay hstep => rcases hstep with hstep | hstep <;> cases hstep
    | missing _ _ hnone => rw [hv] at hnone; cases hnone
    | enter _ _ _ _ h => exact ih hd (hss ▸ h)
    | detour _ _ hface => rw [hv] at hface; cases hface

end Walks

/-! ## Folding along a walk -/

/-- The way up from where a path leads is the directory in which its last
name was looked up. -/
def LeadsBack (h : Host) (p : Path) : Prop :=
  ∀ place spot, h.Names p place → h.walk false p = .ok (.entry spot) →
    spot.up = .inTree place.dropLast

/-- Every `..` of a path takes back the name in front of it: the path so
far, folded, leads back. -/
def StepsBack (h : Host) (p : Path) : Prop :=
  ∀ front rest, p.components = front ++ .parent :: rest →
    h.LeadsBack (Path.ofComponents (Path.fold front))

/-- A path whose last name is no link leads back. -/
theorem leadsBack_of_no_link {h : Host} {p : Path}
    (hlink : ∀ place target, h.Names p place → h.root.face? place ≠ some (.link target)) :
    h.LeadsBack p := by
  intro place spot hn hwalk
  cases hface : h.root.face? place with
  | none =>
    obtain ⟨_, _, hvacant⟩ := hn.walk_vacant hface
    cases hvacant.symm.trans hwalk
  | some f =>
    have hplain : ∀ target, f ≠ .link target := by
      rintro target rfl
      exact hlink place target hn hface
    cases (hn.walk_entry hface hplain).symm.trans hwalk
    rfl

section Folding

variable {h : Host} {spot here : Spot} {done rest : List Component} {names : List Text} {n : Text}

/-- What holds between two components of an absolute path that leads to a
directory: the components so far are folded to names, these lead to where
the walk stands, and their links and those still to come are not too many. -/
structure Midway (h : Host) (spot : Spot) (done rest : List Component) (names : List Text)
    (here : Spot) : Prop where
  ordinary : ∀ n ∈ names, IsOrdinary n
  folded : Path.fold done = .root :: names.map .name
  walked : ∃ used left, left + used ≤ linkLimit ∧
    Crosses h.root used (.inTree []) (names.map .name) here ∧
    Leads h.root left here (rest.filterMap stepOf? ++ [.slash]) (.entry spot)

/-- A name is put behind the folded ones. -/
theorem Midway.name (hm : Midway h spot done (.name n :: rest) names here)
    (hn : IsOrdinary n) :
    ∃ here', Midway h spot (done ++ [.name n]) rest (names ++ [n]) here' := by
  obtain ⟨used, left, hlinks, hcross, hleads⟩ := hm.walked
  have hcut : Leads h.root left here ([.name n] ++ (rest.filterMap stepOf? ++ [.slash]))
      (.entry spot) := hleads
  obtain ⟨here', used', left', rfl, hname, hleft⟩ := hcut.cut (by simp)
  refine ⟨here', ?_, ?_, used' + used, left', by omega, ?_, hleft⟩
  · exact List.forall_mem_append.mpr ⟨hm.ordinary, by simpa using hn⟩
  · rw [Path.fold_append_name, hm.folded]
    simp
  · rw [List.map_append]
    exact hcross.trans hname

/-- A `..` at the root stays there, folded and walked. -/
theorem Midway.parent_root (hm : Midway h spot done (.parent :: rest) [] here) :
    Midway h spot (done ++ [.parent]) rest [] here.up := by
  obtain ⟨used, left, hlinks, hcross, hleads⟩ := hm.walked
  obtain rfl : here = .inTree [] := by
    cases hcross.leads
    rfl
  exact ⟨hm.ordinary, Path.fold_append_parent_root hm.folded, used, left, hlinks, hcross,
    hleads.of_up⟩

/-- A `..` takes a name away, and leads back to where it was looked up. -/
theorem Midway.parent (hm : Midway h spot done (.parent :: rest) (names ++ [n]) here)
    (hsize : ¬ pathLimit < Utf8.size (Path.ofComponents (Path.fold done)).text)
    (hback : h.LeadsBack (Path.ofComponents (Path.fold done))) :
    Midway h spot (done ++ [.parent]) rest names here.up := by
  obtain ⟨used, left, hlinks, hcross, hleads⟩ := hm.walked
  have hsteps : steps (Path.ofComponents (Path.fold done)) = (names ++ [n]).map .name := by
    rw [hm.folded, steps_ofComponents hm.ordinary]
  have horigin : h.origin (Path.ofComponents (Path.fold done)) = .ok (.inTree []) := by
    rw [hm.folded] at hsize ⊢
    exact origin_ofComponents hsize
  have hwhole : Leads h.root used (.inTree []) (names.map .name ++ [.name n]) (.entry here) := by
    simpa using hcross.leads
  -- The name is looked up in the directory that the names in front lead to.
  obtain ⟨spot', used', left', rfl, hfront, hname⟩ := hwhole.cut (by simp)
  obtain ⟨directory, rfl, hn⟩ := hname.of_name
  have hdirectory : Leads h.root linkLimit (.inTree []) (names.map .name ++ [.slash])
      (.entry (.inTree directory)) :=
    (hfront 0 _ _ (.stay (.inr rfl) hname.standsAt .arrived)).mono (by omega)
  have hnames : h.Names (Path.ofComponents (Path.fold done)) (directory ++ [n]) :=
    ⟨directory, n, parent_eq_ok_iff.mpr ⟨_, _, horigin, by simp [hsteps], hdirectory⟩, hn, rfl⟩
  have hwalk : h.walk false (Path.ofComponents (Path.fold done)) = .ok (.entry here) :=
    walk_eq_ok_iff.mpr ⟨_, horigin, hsteps ▸ hcross.leads.mono (by omega)⟩
  have hup : here.up = .inTree directory := by
    simpa using hback _ _ hnames hwalk
  refine ⟨fun m hm' => hm.ordinary m (List.mem_append_left _ hm'), ?_, used', left, by omega,
    hup ▸ hfront, hleads.of_up⟩
  exact Path.fold_append_parent (n := n) (by simp [hm.folded])

/-- After the last component the folded names lead to the end of the walk. -/
theorem Midway.finish {p : Path} (hm : Midway h spot done rest names here)
    (hp : p.components = done ++ rest) (hrest : ∀ c ∈ rest, c.IsStep)
    (habsolute : p.isAbsolute = true) (hsize : ¬ pathLimit < Utf8.size p.text)
    (hback : h.StepsBack p) :
    ∃ names' : List Text, (∀ n ∈ names', IsOrdinary n) ∧
      Path.fold p.components = .root :: names'.map .name ∧
      Leads h.root linkLimit (.inTree []) (names'.map .name) (.entry spot) := by
  induction rest generalizing done names here with
  | nil =>
    obtain ⟨used, left, hlinks, hcross, hleads⟩ := hm.walked
    obtain rfl : spot = here := by
      cases hleads with
      | stay _ _ hend => cases hend; rfl
    rw [hp, List.append_nil]
    exact ⟨names, hm.ordinary, hm.folded, hcross.leads.mono (by omega)⟩
  | cons c rest ih =>
    have hp' : p.components = (done ++ [c]) ++ rest := by simpa using hp
    obtain ⟨hc, hsteps⟩ := List.forall_mem_cons.mp hrest
    rcases hc with rfl | ⟨n, hn, rfl⟩
    · rcases List.eq_nil_or_concat names with rfl | ⟨init, last, rfl⟩
      · exact ih hm.parent_root hp' hsteps
      · rw [List.concat_eq_append] at hm
        have hsublist : (Path.fold done).Sublist p.components :=
          hp ▸ (Path.fold_sublist done).trans (List.sublist_append_left done _)
        have hless : Utf8.size (Path.ofComponents (Path.fold done)).text ≤ Utf8.size p.text := by
          rw [hm.folded] at hsublist ⊢
          exact ((Path.text_sublist habsolute hsublist).flatMap _).length_le
        exact ih (hm.parent (by omega) (hback _ _ hp)) hp' hsteps
    · obtain ⟨here', hm'⟩ := hm.name hn
      exact ih hm' hp' hsteps

end Folding

/-! ## Whole paths -/

section Whole

variable {h : Host} {p : Path} {spot : Spot} {node : Node}

/-- The walk of an absolute path to a directory, by its components. -/
theorem leads_components (habsolute : p.isAbsolute = true)
    (hl : h.locate p = .ok (spot, node)) (hdirectory : node.isDirectory = true) {ss : List Step}
    (hss : ss.filter Step.goes = p.body.filterMap stepOf?) :
    Leads h.root linkLimit (.inTree []) ss (.entry spot) := by
  obtain ⟨_, hwalk, hnode⟩ := walk_of_locate hl
  obtain ⟨start, hstart, hleads⟩ := walk_eq_ok_iff.mp hwalk
  obtain ⟨_, _, rfl⟩ := origin_eq_ok hstart
  rw [if_pos habsolute] at hleads
  exact hleads.congr_goes (Node.standsAt_iff.mpr ⟨node, hnode, hdirectory⟩)
    (hss.trans (filter_steps p).symm)

section

variable {names : List Text} (hnames : ∀ n ∈ names, IsOrdinary n)
  (hfold : Path.fold p.components = .root :: names.map .name)
include hnames hfold

/-- A folded path is walked name by name. -/
theorem steps_normal : steps p.normal = names.map .name := by
  rw [Path.normal, hfold]
  exact steps_ofComponents hnames

/-- A folded path leads where its names lead: it is no longer than the
written path, and holds no other characters. -/
theorem locate_folded (habsolute : p.isAbsolute = true) (hnul : hasNul p = false)
    (hsize : ¬ pathLimit < Utf8.size p.text)
    (hend : Leads h.root linkLimit (.inTree []) (names.map .name) (.entry spot))
    (hnode : h.root.at? spot = some node) : h.locate p.normal = .ok (spot, node) := by
  have hnormal : p.normal = Path.ofComponents (.root :: names.map .name) := by
    rw [Path.normal, hfold]
  have htext : (Path.ofComponents (.root :: names.map .name)).text.Sublist p.text :=
    Path.text_sublist habsolute (hfold ▸ Path.fold_sublist p.components)
  have hless : Utf8.size (Path.ofComponents (.root :: names.map .name)).text ≤
      Utf8.size p.text := (htext.flatMap _).length_le
  have hnul' : hasNul (Path.ofComponents (.root :: names.map .name)) = false := by
    simp only [hasNul, List.contains_eq_mem, decide_eq_false_iff_not] at hnul ⊢
    exact fun hmem => hnul (htext.subset hmem)
  rw [hnormal]
  refine locate_of_walk hnul' (walk_eq_ok_iff.mpr ⟨_, origin_ofComponents (by omega), ?_⟩) hnode
  rw [steps_ofComponents hnames]
  exact hend

end

/-- An absolute path to a directory leads there also when it is folded, if
every `..` of it leads back. -/
theorem locate_normal (habsolute : p.isAbsolute = true) (hback : h.StepsBack p)
    (hl : h.locate p = .ok (spot, node)) (hdirectory : node.isDirectory = true) :
    h.locate p.normal = .ok (spot, node) := by
  obtain ⟨hnul, hwalk, hnode⟩ := walk_of_locate hl
  obtain ⟨start, hstart, _⟩ := walk_eq_ok_iff.mp hwalk
  obtain ⟨_, hsize, _⟩ := origin_eq_ok hstart
  have hleads : Leads h.root linkLimit (.inTree []) (p.body.filterMap stepOf? ++ [.slash])
      (.entry spot) :=
    leads_components habsolute hl hdirectory (by
      rw [List.filter_append, filter_filterMap_stepOf?]
      exact List.append_nil _)
  have hm : Midway h spot [.root] p.body [] (.inTree []) :=
    ⟨by simp, rfl, 0, linkLimit, Nat.le_refl _, crosses_nil, hleads⟩
  obtain ⟨names, hnames, hfold, hend⟩ :=
    hm.finish (Path.components_of_isAbsolute habsolute)
      (fun c hc => Path.isStep_of_mem_body hc) habsolute hsize hback
  exact locate_folded hnames hfold habsolute hnul hsize hend hnode

/-- A path leads to the directory to which it leads when it is made
absolute, unless it is too long to be walked as it is written. -/
theorem locate_of_absolute {process v : Path} (hprocess : process.isAbsolute = true)
    (hv : v.text ≠ []) (hsize : Utf8.size v.text ≤ pathLimit)
    (hstart : v.isAbsolute = false → ∃ place, h.process = .inTree place ∧
      h.root.StandsAt (.inTree place) ∧ (∀ n ∈ place, IsOrdinary n) ∧
      process = Path.ofComponents (.root :: place.map .name))
    (hl : h.locate (Path.absolute process v) = .ok (spot, node))
    (hdirectory : node.isDirectory = true) : h.locate v = .ok (spot, node) := by
  obtain ⟨hnul, _, hnode⟩ := walk_of_locate hl
  obtain ⟨habsolute, hcomponents⟩ := Path.components_absolute hprocess v
  have hnul' : hasNul v = false := by
    simp only [hasNul, List.contains_eq_mem, decide_eq_false_iff_not] at hnul ⊢
    intro hmem
    obtain ⟨k, hk, hmem⟩ := Path.exists_mem_component hmem (by decide) (by decide)
    exact hnul (Path.mem_text_of_mem_component (Path.isStep_of_mem_body hk)
      (hcomponents ▸ List.mem_append_right _ hk) hmem)
  rw [Path.components_of_isAbsolute habsolute] at hcomponents
  suffices hleads : Leads h.root linkLimit (if v.isAbsolute then .inTree [] else h.process)
      (steps v) (.entry spot) by
    refine locate_of_walk hnul' (walk_eq_ok_iff.mpr ⟨_, ?_, hleads⟩) hnode
    rw [origin, if_neg hv, if_neg (by omega)]
    split <;> rfl
  cases hcase : v.isAbsolute with
  | true =>
    rw [hcase, if_pos rfl] at hcomponents
    rw [if_pos rfl]
    refine leads_components habsolute hl hdirectory ?_
    rw [filter_steps, (List.cons.inj hcomponents).2]
    rfl
  | false =>
    obtain ⟨place, hplace, hstands, hnames, rfl⟩ := hstart hcase
    rw [hcase, Path.components_ofComponents hnames] at hcomponents
    rw [hplace]
    have hnamed : (place.map Component.name).filterMap stepOf? = place.map Step.name := by
      rw [List.filterMap_map]
      exact List.filterMap_eq_map_iff_forall_eq_some.mpr fun _ _ => rfl
    have hwhole : Leads h.root linkLimit (.inTree []) (place.map .name ++ steps v)
        (.entry spot) := by
      refine leads_components habsolute hl hdirectory ?_
      rw [List.filter_append, filter_steps, ← hnamed, filter_filterMap_stepOf?,
        ← List.filterMap_append]
      exact congrArg _ (List.cons.inj hcomponents).2.symm
    exact hwhole.through hstands

end Whole

end Host

end FileShell

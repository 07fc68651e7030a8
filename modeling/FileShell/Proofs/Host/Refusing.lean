/-
FileShell.Proofs.Host.Refusing — why nothing can be made.

Making is refused for many causes; two of them are passed on by name. Both
are read off `vacancy`, the free name that making asks for.

* `exists`: the walk itself never fails for it, so the last name was looked
  up and found, or the path ends in no name and leads to a directory
  (`taken_of_vacancy`).
* `noEntry`: either the path above leads nowhere, or it leads to a directory
  that has been removed, in which no name can be looked up
  (`lacksParent_of_vacancy`). No absolute path leads to one (`Leads.inTree`).

For the second, the walk to the parent is compared with the walk of the
path above: the first is the second and a slash, and what a slash adds is
known, whether the walk goes on to end or fails (`Leads.follow_append`).
-/
import FileShell.Proofs.Host.Making

namespace FileShell

namespace Host

open IoError (Cause)

/-! ## Walks that fail -/

section

variable {root : Node} {making : Bool} {links : Nat} {here spot : Spot} {ss : List Step}
  {c : Cause}

theorem advance_ne_exists (hc : advance root making here ss = .error c) : c ≠ .exists := by
  rintro rfl
  induction ss generalizing here with
  | nil => cases hc
  | cons step rest ih =>
    rw [advance] at hc
    split at hc
    · cases hc
    · split at hc
      · cases hc
      · cases step with
        | name n =>
          dsimp only at hc
          split at hc
          · cases hc
          · cases here with
            | removed above => cases hc
            | inTree place =>
              dsimp only [Spot.open?] at hc
              split at hc
              · cases hc
              · split at hc
                · split at hc <;> cases hc
                · cases hc
                · exact ih hc
        | _ => exact ih hc

/-- A walk never fails because there is something. -/
theorem follow_ne_exists (hc : follow root making links here ss = .error c) : c ≠ .exists := by
  rintro rfl
  induction links generalizing here ss with
  | zero =>
    rw [follow_eq] at hc
    split at hc
    · next ha =>
      cases hc
      exact advance_ne_exists ha rfl
    · cases hc
    · cases hc
    · split at hc <;> cases hc
  | succ links ih =>
    rw [follow_eq] at hc
    split at hc
    · next ha =>
      cases hc
      exact advance_ne_exists ha rfl
    · cases hc
    · cases hc
    · split at hc
      · cases hc
      · exact ih hc

/-- After a walk that ends at an entry, more steps are taken from there, to
an end or to a failure. -/
theorem Leads.follow_append (hl : Leads root links here ss (.entry spot)) :
    ∃ left, ∀ tail, follow root false links here (ss ++ tail) =
      follow root false left spot tail := by
  generalize hend : Found.entry spot = x at hl
  induction hl with
  | @arrived links here =>
    cases hend
    exact ⟨links, fun _ => rfl⟩
  | stay hstep hd _ ih =>
    obtain ⟨left, hleft⟩ := ih hend
    exact ⟨left, fun tail => (follow_congr (advance_stay hstep hd _)).trans (hleft tail)⟩
  | up hd _ ih =>
    obtain ⟨left, hleft⟩ := ih hend
    exact ⟨left, fun tail => (follow_congr (advance_up hd _)).trans (hleft tail)⟩
  | missing => cases hend
  | @enter links place n rest x f hd hsize hface hlink _ ih =>
    obtain ⟨left, hleft⟩ := ih hend
    refine ⟨left, fun tail => (follow_congr ?_).trans (hleft tail)⟩
    rw [List.cons_append, advance_name hd, hface]
    cases f with
    | link target => exact absurd rfl (hlink target)
    | _ => simp [hsize]
  | @detour links place n target rest x hd hsize hface htext _ ih =>
    obtain ⟨left, hleft⟩ := ih hend
    refine ⟨left, fun tail => ?_⟩
    rw [List.cons_append, follow_eq, advance_name hd]
    simp only [hsize, hface, htext, Bool.false_and, Bool.false_eq_true, if_false,
      ← List.append_assoc, hleft]

/-- From the tree no walk leads out of it. -/
theorem Leads.inTree {place : Place} (hl : Leads root links (.inTree place) ss (.entry spot)) :
    ∃ place', spot = .inTree place' := by
  generalize hhere : Spot.inTree place = here at hl
  generalize hend : Found.entry spot = x at hl
  induction hl generalizing place with
  | arrived =>
    cases hend
    exact ⟨place, hhere.symm⟩
  | stay _ _ _ ih => exact ih hhere hend
  | up _ _ ih =>
    subst hhere
    exact ih rfl hend
  | missing => cases hend
  | enter _ _ _ _ _ ih => exact ih rfl hend
  | detour _ _ _ _ _ ih => exact ih rfl hend

/-- A slash is refused as missing only where nothing is. -/
theorem follow_slash (hc : follow root false links spot [.slash] = .error .noEntry) :
    root.at? spot = none := by
  rw [follow_eq, advance] at hc
  cases hnode : root.at? spot with
  | none => rfl
  | some node =>
    rw [hnode] at hc
    cases hd : node.isDirectory with
    | true => simp [hd, advance] at hc
    | false => simp [hd] at hc

end

/-! ## Walks to a parent -/

/-- What a last step makes a path end with. -/
def Step.ending : Step → Ending
  | .name n => .name n
  | .stay => .stay
  | .up => .up
  | .slash => .root

theorem splitSteps_append (front : List Step) {last : Step} (hlast : last ≠ .slash) :
    splitSteps (front ++ [last]) = (front, last.ending, false) := by
  cases last with
  | slash => exact absurd rfl hlast
  | _ => simp [splitSteps, Step.ending]

variable {h : Host} {p : Path} {c : Cause}

/-- A walk to a directory fails as the walk of its steps and a slash does. -/
theorem followToDirectory_eq_error {start : Spot} {ss : List Step} :
    h.followToDirectory start ss = .error c ↔
      follow h.root false linkLimit start (ss ++ [.slash]) = .error c := by
  rw [followToDirectory]
  cases hf : follow h.root false linkLimit start (ss ++ [.slash]) with
  | error c' => simp
  | ok x =>
    obtain ⟨spot, rfl, -⟩ := (leads_of_follow hf).of_slash
    simp

theorem of_parent_error (hp : h.parent p = .error c) :
    h.origin p = .error c ∨ ∃ start, h.origin p = .ok start ∧
      follow h.root false linkLimit start ((splitSteps (steps p)).1 ++ [.slash]) = .error c := by
  rw [parent] at hp
  cases ho : h.origin p with
  | error c' =>
    rw [ho] at hp
    cases hp
    exact .inl rfl
  | ok start =>
    rw [ho] at hp
    dsimp only at hp
    cases hd : h.followToDirectory start (splitSteps (steps p)).1 with
    | error c' =>
      rw [hd] at hp
      cases hp
      exact .inr ⟨start, rfl, followToDirectory_eq_error.mp hd⟩
    | ok d =>
      rw [hd] at hp
      cases hp

theorem of_parent_ok {s : Split} (hs : h.parent p = .ok s) :
    ∃ start, h.origin p = .ok start ∧
      Leads h.root linkLimit start ((splitSteps (steps p)).1 ++ [.slash]) (.entry s.directory) ∧
      (splitSteps (steps p)).2.1 = s.ending := by
  rw [parent] at hs
  cases ho : h.origin p with
  | error c =>
    rw [ho] at hs
    cases hs
  | ok start =>
    rw [ho] at hs
    simp only [followToDirectory] at hs
    cases hf : follow h.root false linkLimit start ((splitSteps (steps p)).1 ++ [.slash]) with
    | error c =>
      rw [hf] at hs
      cases hs
    | ok x =>
      obtain ⟨spot, rfl, -⟩ := (leads_of_follow hf).of_slash
      rw [hf] at hs
      cases hs
      exact ⟨start, rfl, leads_of_follow hf, rfl⟩

theorem parent_ne_exists (hp : h.parent p = .error c) : c ≠ .exists := by
  rcases of_parent_error hp with ho | ⟨start, -, hf⟩
  · rintro rfl
    rw [origin] at ho
    split at ho
    · cases ho
    · split at ho
      · cases ho
      · split at ho <;> cases ho
  · exact follow_ne_exists hf

/-- The ways in which a free name is not found. -/
theorem of_vacancy_error (hv : h.vacancy p = .error c) :
    h.parent p = .error c ∨ ∃ s, h.parent p = .ok s ∧
      ((c = .exists ∧ ∀ n, s.ending ≠ .name n) ∨
        (c = .noEntry ∧ ∃ above, s.directory = .removed above) ∨ c = .nameTooLong ∨
        (c = .exists ∧ ∃ d n node, s.directory = .inTree d ∧ s.ending = .name n ∧
          h.lookup d n = .ok (some node))) := by
  unfold vacancy at hv
  cases hs : h.parent p with
  | error c' =>
    rw [hs] at hv
    cases hv
    exact .inl rfl
  | ok s =>
    obtain ⟨here, ending, slash⟩ := s
    rw [hs] at hv
    refine .inr ⟨_, rfl, ?_⟩
    cases ending with
    | name n =>
      cases here with
      | removed above =>
        cases hv
        exact .inr (.inl ⟨rfl, above, rfl⟩)
      | inTree d =>
        simp only [bind, Except.bind, Spot.open?] at hv
        cases hl : h.lookup d n with
        | error c' =>
          rw [hl] at hv
          cases hv
          rw [lookup] at hl
          split at hl
          · cases hl
            exact .inr (.inr (.inl rfl))
          · cases hl
        | ok found =>
          rw [hl] at hv
          cases found with
          | none => cases hv
          | some node =>
            cases hv
            exact .inr (.inr (.inr ⟨rfl, d, n, node, rfl, rfl, hl⟩))
    | _ =>
      cases hv
      exact .inl ⟨rfl, fun n hn => by cases hn⟩

/-! ## Something is there -/

/-- The name a path ends in is taken, or the path leads to a directory. -/
def Taken (h : Host) (p : Path) : Prop :=
  (∃ place f, h.Names p place ∧ h.root.face? place = some f) ∨ h.isDirectory p = true

/-- A path whose last step is no name leads to a directory, if it has a parent. -/
theorem isDirectory_of_parent (hnul : hasNul p = false)
    (hslash : (steps p).getLast? ≠ some .slash) {s : Split} (hs : h.parent p = .ok s)
    (hending : ∀ n, s.ending ≠ .name n) : h.isDirectory p = true := by
  obtain ⟨start, ho, hfront, hend⟩ := of_parent_ok hs
  obtain ⟨hstands, left, happend⟩ := hfront.append
  have hwalk : ∃ spot, Leads h.root linkLimit start (steps p) (.entry spot) ∧
      h.root.StandsAt spot := by
    rcases List.eq_nil_or_concat (steps p) with hsteps | ⟨front, last, hsteps⟩
    · rw [hsteps] at happend ⊢
      exact ⟨s.directory, happend [] _ .arrived, hstands⟩
    · rw [List.concat_eq_append] at hsteps
      rw [hsteps] at hslash hend happend ⊢
      rw [List.getLast?_concat] at hslash
      have hlast : last ≠ .slash := fun h => hslash (congrArg some h)
      rw [splitSteps_append front hlast] at hend happend
      cases last with
      | name n => exact absurd hend.symm (hending n)
      | stay => exact ⟨s.directory, happend _ _ (.stay (.inl rfl) hstands .arrived), hstands⟩
      | up => exact ⟨s.directory.up, happend _ _ (.up hstands .arrived), hstands.up⟩
      | slash => exact absurd rfl hlast
  obtain ⟨spot, hl, hd⟩ := hwalk
  obtain ⟨node, hnode, hdir⟩ := Node.standsAt_iff.mp hd
  rw [isDirectory, locate_of_walk hnul (walk_eq_ok_iff.mpr ⟨start, ho, hl⟩) hnode]
  exact hdir

/-- Nothing is made where something is. -/
theorem taken_of_vacancy (hnul : hasNul p = false) (hslash : (steps p).getLast? ≠ some .slash)
    (hv : h.vacancy p = .error .exists) : h.Taken p := by
  rcases of_vacancy_error hv with hp | ⟨s, hs, ⟨-, hending⟩ | ⟨hc, -⟩ | hc | ⟨-, hfound⟩⟩
  · exact absurd rfl (parent_ne_exists hp)
  · exact .inr (isDirectory_of_parent hnul hslash hs hending)
  · cases hc
  · cases hc
  · obtain ⟨d, n, node, hd, hn, hl⟩ := hfound
    obtain ⟨directory, ending, slash⟩ := s
    cases hd
    cases hn
    obtain rfl : slash = false := slash_of_parent hslash hs
    obtain ⟨hsize, hfind⟩ := lookup_eq_ok hl
    exact .inl ⟨_, _, ⟨d, n, hs, hsize, rfl⟩, Node.face?_of_find? hfind⟩

/-! ## There is no parent -/

/-- There is nothing at the path above. If that path starts in the process
directory, it may also lead to a directory that has been removed, in which
nothing can be made. -/
def LacksParent (h : Host) (p : Path) : Prop :=
  ∃ up, p.parent? = some up ∧ (h.exists? up = false ∨
    p.isAbsolute = false ∧ ∃ above node, h.locate up = .ok (.removed above, node))

theorem exists?_empty {up : Path} (htext : up.text = []) : h.exists? up = false := by
  have hnul : hasNul up = false := by simp [hasNul, htext]
  simp [exists?, locate, hnul, reach, walk, origin, htext, Except.mapError, Except.isOk,
    Except.toBool]

/-- Only the empty path starts nowhere. -/
theorem text_of_origin (ho : h.origin p = .error .noEntry) : p.text = [] := by
  rw [origin] at ho
  split at ho
  · assumption
  · split at ho
    · cases ho
    · split at ho <;> cases ho

/-- What the walk to a parent comes to, where the path above leads somewhere. -/
theorem parent_of_above {up : Path} {last : Step} {spot : Spot} {node : Node}
    (hsteps : steps p = steps up ++ [last]) (hlast : last ≠ .slash)
    (habsolute : up.isAbsolute = p.isAbsolute) (hup : h.locate up = .ok (spot, node)) :
    (∀ s, h.parent p = .ok s → s.directory = spot) ∧ h.parent p ≠ .error .noEntry ∧
      (p.isAbsolute = true → ∃ place, spot = .inTree place) := by
  obtain ⟨-, hwalk, hnode⟩ := walk_of_locate hup
  obtain ⟨start, ho, hl⟩ := walk_eq_ok_iff.mp hwalk
  obtain ⟨-, -, rfl⟩ := origin_eq_ok ho
  obtain ⟨left, hgoon⟩ := hl.follow_append
  have hfront : (splitSteps (steps p)).1 = steps up := by rw [hsteps, splitSteps_append _ hlast]
  have hstart {start' : Spot} (ho' : h.origin p = .ok start') :
      start' = if up.isAbsolute then .inTree [] else h.process := by
    rw [habsolute]
    exact (origin_eq_ok ho').2.2
  refine ⟨fun s hs => ?_, fun hp => ?_, fun ha => ?_⟩
  · obtain ⟨start', ho', hslash, -⟩ := of_parent_ok hs
    obtain rfl := hstart ho'
    rw [hfront] at hslash
    have hend := (hgoon _).symm.trans (follow_of_leads hslash)
    cases leads_of_follow hend with
    | stay _ _ hdone =>
      cases hdone
      rfl
  · rcases of_parent_error hp with ho' | ⟨start', ho', hslash⟩
    · have hnone : steps p = [] := by
        simp [steps, text_of_origin ho', Text.pieces, Step.ofPiece?]
      rw [hnone] at hsteps
      simp at hsteps
    · obtain rfl := hstart ho'
      rw [hfront, hgoon] at hslash
      rw [follow_slash hslash] at hnode
      cases hnode
  · rw [habsolute, if_pos ha] at hl
    exact hl.inTree

/-- A folded path that cannot be made because something is missing has no parent. -/
theorem lacksParent_of_vacancy (hv : h.vacancy p.normal = .error .noEntry) :
    h.LacksParent p.normal := by
  have hmissing : h.parent p.normal = .error .noEntry ∨
      ∃ s above, h.parent p.normal = .ok s ∧ s.directory = .removed above := by
    rcases of_vacancy_error hv with hp | ⟨s, hs, ⟨hc, -⟩ | ⟨-, above, hd⟩ | hc | ⟨hc, -⟩⟩
    · exact .inl hp
    · cases hc
    · exact .inr ⟨s, above, hs, hd⟩
    · cases hc
    · cases hc
  rcases steps_above p with
    ⟨-, habsolute, hsteps⟩ | ⟨up, last, hup, hlast, ⟨hempty, -⟩ | ⟨habsolute, hsteps⟩⟩
  · -- the root is not missing
    exfalso
    have hstart {start : Spot} (ho : h.origin p.normal = .ok start) : start = .inTree [] :=
      (origin_eq_ok ho).2.2.trans (if_pos habsolute)
    rcases hmissing with hp | ⟨s, above, hs, hd⟩
    · rcases of_parent_error hp with ho | ⟨start, ho, hslash⟩
      · rw [Path.isAbsolute, text_of_origin ho] at habsolute
        cases habsolute
      · obtain rfl := hstart ho
        rw [hsteps] at hslash
        cases (follow_slash hslash).symm.trans (h.root.find?_nil :)
    · obtain ⟨start, ho, hl, -⟩ := of_parent_ok hs
      obtain rfl := hstart ho
      obtain ⟨place, hplace⟩ := hl.inTree
      cases hd.symm.trans hplace
  · exact ⟨up, hup, .inl (exists?_empty hempty)⟩
  · cases hl : h.locate up with
    | error e => exact ⟨up, hup, .inl (by rw [exists?, hl]; rfl)⟩
    | ok found =>
      obtain ⟨spot, node⟩ := found
      obtain ⟨hdirectory, hfound, hinTree⟩ := parent_of_above hsteps hlast habsolute hl
      rcases hmissing with hp | ⟨s, above, hs, hd⟩
      · exact absurd hp hfound
      · obtain rfl := (hdirectory s hs).symm.trans hd
        refine ⟨up, hup, .inr ⟨?_, above, node, hl⟩⟩
        cases hroot : p.normal.isAbsolute with
        | false => rfl
        | true =>
          obtain ⟨place, hplace⟩ := hinTree hroot
          cases hplace

/-! ## The two causes that are passed on by name -/

/-- Making is refused because something is there, or for want of a parent,
as its error says; and a refusal changes nothing. -/
theorem of_refused {make : Place × Text → Host} {e : IoError} {h' : Host}
    (hg : h.guarded p.normal ((h.vacancy p.normal).map make) = (.error e, h')) :
    h' = h ∧ (e.kind = .alreadyExists → h.Taken p.normal) ∧
      (e.kind = .notFound → h.LacksParent p.normal) := by
  obtain ⟨rfl, rfl | ⟨hnul, c, hop, rfl⟩⟩ := guarded_error hg
  · exact ⟨rfl, nofun, nofun⟩
  · have hv : h'.vacancy p.normal = .error c := by
      cases hvacancy : h'.vacancy p.normal with
      | error c' =>
        rw [hvacancy] at hop
        cases hop
        rfl
      | ok found =>
        rw [hvacancy] at hop
        cases hop
    refine ⟨rfl, fun hkind => ?_, fun hkind => ?_⟩
    · cases c <;> cases hkind
      exact taken_of_vacancy hnul (getLast?_steps_normal p) hv
    · cases c <;> cases hkind
      exact lacksParent_of_vacancy hv

end Host

end FileShell

/-
FileShell.Proofs.Host.Walking — walks that end, as derivations.

`follow` takes its steps in rounds, one for each link. A walk that ends is
easier to reason about step by step: `Leads root links here ss x` derives
it by one rule for each kind of step, and is the same as `follow` ending
at `x` (`leads_iff_follow`; a walk that may make what it does not find
refuses more and ends nowhere else, `leads_of_follow`).

A walk reads nothing of a tree but its directories and links, its ways,
and what is at its very end. Two facts come of that, both by induction on
the derivation.

* `Leads.transfer`: where the ways of one tree are ways of another
  (`WaysIn`), a walk goes the same way in the other, to whatever is at the
  end there.
* `Leads.cut`: a walk with steps left is a crossing (`Crosses`) and a walk
  from where that ends. So the directory that `parent` finds is the one
  that the whole walk comes by.
-/
import FileShell.Proofs.Host.Faces

namespace FileShell

namespace Host

open IoError (Cause)

/-! ## Standing in a directory -/

namespace Node

/-- Whether there is a directory to stand in at a spot. -/
def StandsAt (root : Node) (here : Spot) : Prop := ∃ v, root.volumeOf here = some v

variable {root : Node} {here : Spot}

theorem standsAt_inTree {place : Place} :
    root.StandsAt (.inTree place) ↔ ∃ v, root.face? place = some (.directory v) :=
  exists_congr fun _ => volumeAt_eq_some_iff

theorem standsAt_iff :
    root.StandsAt here ↔ ∃ node, root.at? here = some node ∧ node.isDirectory = true := by
  cases here with
  | inTree place =>
    rw [standsAt_inTree, face?, at?]
    cases root.find? place with
    | none => simp
    | some node => cases node <;> simp [face, isDirectory]
  | removed above =>
    simp only [StandsAt, volumeOf, at?]
    cases root.volumeOf above <;> simp [isDirectory]

/-- There is a directory wherever something is below. -/
theorem standsAt_of_below {place : Place} {name : Text} {rest : Place} {f : Face}
    (hf : root.face? (place ++ name :: rest) = some f) : root.StandsAt (.inTree place) := by
  have hd : root.IsDirectoryAt place := Classical.byContradiction fun hplain => by
    rw [face?_below hplain] at hf
    cases hf
  obtain ⟨f', hf', hdirectory⟩ := hd
  cases f' with
  | directory v => exact standsAt_inTree.mpr ⟨v, hf'⟩
  | _ => cases hdirectory

theorem StandsAt.up (h : root.StandsAt here) : root.StandsAt here.up := by
  cases here with
  | removed above => exact h
  | inTree place =>
    rcases List.eq_nil_or_concat place with rfl | ⟨init, last, rfl⟩
    · exact h
    · obtain ⟨v, hv⟩ := standsAt_inTree.mp h
      rw [List.concat_eq_append] at hv
      simpa [Spot.up] using standsAt_of_below hv

/-- There is a directory at the root if there is one anywhere. -/
theorem StandsAt.atRoot {place : Place} (h : root.StandsAt (.inTree place)) :
    root.StandsAt (.inTree []) := by
  cases place with
  | nil => exact h
  | cons name rest =>
    obtain ⟨v, hv⟩ := standsAt_inTree.mp h
    have hroot : root.face? ([] ++ name :: rest) = some (.directory v) := hv
    exact standsAt_of_below hroot

end Node

/-! ## One step -/

section Steps

variable {root : Node} {making : Bool} {here : Spot}

/-- No step can be taken from where there is no directory. -/
theorem standsAt_of_advance {step : Step} {rest : List Step} {a : Advance}
    (h : advance root making here (step :: rest) = .ok a) : root.StandsAt here := by
  rw [Node.standsAt_iff]
  rw [advance] at h
  split at h
  · cases h
  · next node hnode =>
    refine ⟨node, hnode, ?_⟩
    cases hd : node.isDirectory with
    | true => rfl
    | false => simp [hd] at h

theorem advance_stay {step : Step} (hstep : step = .stay ∨ step = .slash)
    (hd : root.StandsAt here) (rest : List Step) :
    advance root making here (step :: rest) = advance root making here rest := by
  obtain ⟨node, hnode, hdir⟩ := Node.standsAt_iff.mp hd
  rw [advance, hnode]
  rcases hstep with rfl | rfl <;> simp [hdir]

theorem advance_up (hd : root.StandsAt here) (rest : List Step) :
    advance root making here (.up :: rest) = advance root making here.up rest := by
  obtain ⟨node, hnode, hdir⟩ := Node.standsAt_iff.mp hd
  rw [advance, hnode]
  simp [hdir]

/-- What a name leads to depends on the face of the entry only. -/
theorem advance_name {place : Place} (hd : root.StandsAt (.inTree place)) (n : Text)
    (rest : List Step) :
    advance root making (.inTree place) (.name n :: rest) =
      if making && rest = [.slash] then .error .isADirectory
      else if nameLimit < Utf8.size n then .error .nameTooLong
      else match root.face? (place ++ [n]) with
        | none => if rest = [] then .ok (.missing place n) else .error .noEntry
        | some (.link target) => .ok (.detour place target rest)
        | some _ => advance root making (.inTree (place ++ [n])) rest := by
  obtain ⟨node, hnode, hdir⟩ := Node.standsAt_iff.mp hd
  have hfind : root.find? place = some node := hnode
  have hchild : node.child? n = root.find? (place ++ [n]) := by
    rw [Node.find?_append, hfind, Option.bind_some, Node.find?_cons]
    cases node.child? n <;> simp
  rw [advance, hnode, Node.face?, ← hchild]
  simp only [hdir, Bool.not_true, Bool.false_eq_true, if_false, Spot.open?]
  split
  · rfl
  · split
    · rfl
    · cases node.child? n with
      | none => rfl
      | some child => cases child <;> rfl

/-- Names can be looked up in the tree only. -/
theorem advance_name_removed (above : Spot) (n : Text) (rest : List Step) {a : Advance} :
    advance root making (.removed above) (.name n :: rest) ≠ .ok a := by
  intro h
  obtain ⟨node, hnode, hdir⟩ := Node.standsAt_iff.mp (standsAt_of_advance h)
  rw [advance, hnode] at h
  simp only [hdir, Bool.not_true, Bool.false_eq_true, if_false, Spot.open?] at h
  split at h <;> cases h

end Steps

/-! ## Walks that end -/

/-- A walk from a spot that ends, following at most so many links. -/
inductive Leads (root : Node) : Nat → Spot → List Step → Found → Prop where
  | arrived {links : Nat} {here : Spot} : Leads root links here [] (.entry here)
  | stay {links : Nat} {here : Spot} {step : Step} {rest : List Step} {x : Found}
      (hstep : step = .stay ∨ step = .slash) (hd : root.StandsAt here)
      (h : Leads root links here rest x) : Leads root links here (step :: rest) x
  | up {links : Nat} {here : Spot} {rest : List Step} {x : Found} (hd : root.StandsAt here)
      (h : Leads root links here.up rest x) : Leads root links here (.up :: rest) x
  | missing {links : Nat} {place : Place} {n : Text} (hd : root.StandsAt (.inTree place))
      (hsize : ¬ nameLimit < Utf8.size n) (hnone : root.face? (place ++ [n]) = none) :
      Leads root links (.inTree place) [.name n] (.vacant place n)
  | enter {links : Nat} {place : Place} {n : Text} {rest : List Step} {x : Found} {f : Face}
      (hd : root.StandsAt (.inTree place)) (hsize : ¬ nameLimit < Utf8.size n)
      (hface : root.face? (place ++ [n]) = some f) (hlink : ∀ target, f ≠ .link target)
      (h : Leads root links (.inTree (place ++ [n])) rest x) :
      Leads root links (.inTree place) (.name n :: rest) x
  | detour {links : Nat} {place : Place} {n : Text} {target : Path} {rest : List Step}
      {x : Found} (hd : root.StandsAt (.inTree place)) (hsize : ¬ nameLimit < Utf8.size n)
      (hface : root.face? (place ++ [n]) = some (.link target)) (htext : target.text ≠ [])
      (h : Leads root links (.inTree (if target.isAbsolute then [] else place))
        (steps target ++ rest) x) :
      Leads root (links + 1) (.inTree place) (.name n :: rest) x

/-- Where a walk ends that has come as far as this. -/
def Advance.Ends (root : Node) (links : Nat) : Advance → Found → Prop
  | .arrived spot, x => x = .entry spot
  | .missing directory n, x => x = .vacant directory n
  | .detour directory target rest, x =>
    target.text ≠ [] ∧ ∃ left, links = left + 1 ∧
      Leads root left (.inTree (if target.isAbsolute then [] else directory))
        (steps target ++ rest) x

section

variable {root : Node} {making : Bool} {links : Nat} {here : Spot} {ss : List Step} {x : Found}

/-- Names are looked up in the tree, and have to be short enough. -/
theorem Leads.of_name {n : Text} {rest : List Step}
    (h : Leads root links here (.name n :: rest) x) :
    ∃ place, here = .inTree place ∧ ¬ nameLimit < Utf8.size n := by
  cases h with
  | stay hstep => rcases hstep with hstep | hstep <;> cases hstep
  | missing _ hsize => exact ⟨_, rfl, hsize⟩
  | enter _ hsize => exact ⟨_, rfl, hsize⟩
  | detour _ hsize => exact ⟨_, rfl, hsize⟩

theorem Leads.of_nil (h : Leads root links here [] x) : x = .entry here := by
  cases h
  rfl

theorem Leads.of_up {rest : List Step} (h : Leads root links here (.up :: rest) x) :
    Leads root links here.up rest x := by
  cases h with
  | stay hstep => rcases hstep with hstep | hstep <;> cases hstep
  | up _ h => exact h

/-- A walk that ends may as well follow more links. -/
theorem Leads.mono (h : Leads root links here ss x) {links' : Nat} (hle : links ≤ links') :
    Leads root links' here ss x := by
  obtain ⟨k, rfl⟩ := Nat.exists_eq_add_of_le hle
  clear hle
  induction h with
  | arrived => exact .arrived
  | stay hstep hd _ ih => exact .stay hstep hd ih
  | up hd _ ih => exact .up hd ih
  | missing hd hsize hnone => exact .missing hd hsize hnone
  | enter hd hsize hface hlink _ ih => exact .enter hd hsize hface hlink ih
  | detour hd hsize hface htext _ ih =>
    rw [Nat.add_right_comm]
    exact .detour hd hsize hface htext ih

theorem leads_of_advance {a : Advance} (h : advance root making here ss = .ok a)
    (hx : a.Ends root links x) : Leads root links here ss x := by
  induction ss generalizing here with
  | nil =>
    cases h
    obtain rfl : x = .entry here := hx
    exact .arrived
  | cons step rest ih =>
    have hd : root.StandsAt here := standsAt_of_advance h
    cases step with
    | stay => exact .stay (.inl rfl) hd (ih (by rwa [advance_stay (.inl rfl) hd] at h))
    | slash => exact .stay (.inr rfl) hd (ih (by rwa [advance_stay (.inr rfl) hd] at h))
    | up => exact .up hd (ih (by rwa [advance_up hd] at h))
    | name n =>
      cases here with
      | removed above => exact absurd h (advance_name_removed above n rest)
      | inTree place =>
        rw [advance_name hd] at h
        split at h
        · cases h
        · split at h
          · cases h
          · next hsize =>
            cases hface : root.face? (place ++ [n]) with
            | none =>
              simp only [hface] at h
              split at h
              · next hrest =>
                cases h
                obtain rfl : x = .vacant place n := hx
                exact hrest ▸ .missing hd hsize hface
              · cases h
            | some f =>
              simp only [hface] at h
              cases f with
              | link target =>
                cases h
                obtain ⟨htext, left, rfl, hleft⟩ := hx
                exact .detour hd hsize hface htext hleft
              | _ => exact .enter hd hsize hface (fun _ => nofun) (ih h)

/-- A walk that ends is derived. -/
theorem leads_of_follow (h : follow root making links here ss = .ok x) :
    Leads root links here ss x := by
  induction links generalizing here ss with
  | zero =>
    rw [follow] at h
    split at h
    · cases h
    · next ha => exact leads_of_advance ha (Except.ok.inj h).symm
    · next ha => exact leads_of_advance ha (Except.ok.inj h).symm
    · split at h <;> cases h
  | succ links ih =>
    rw [follow] at h
    split at h
    · cases h
    · next ha => exact leads_of_advance ha (Except.ok.inj h).symm
    · next ha => exact leads_of_advance ha (Except.ok.inj h).symm
    · next ha =>
      split at h
      · cases h
      · next htext => exact leads_of_advance ha ⟨htext, links, rfl, ih h⟩

/-- One round of a walk. -/
theorem follow_eq :
    follow root making links here ss =
      match advance root making here ss with
      | .error e => .error e
      | .ok (.arrived p) => .ok (.entry p)
      | .ok (.missing d n) => .ok (.vacant d n)
      | .ok (.detour d target rest) =>
        if target.text = [] then .error .noEntry
        else match links with
          | 0 => .error .tooManyLinks
          | links + 1 =>
            follow root making links (.inTree (if target.isAbsolute then [] else d))
              (steps target ++ rest) :=
  follow.eq_def root making links here ss

/-- A walk goes on alike from where its next steps are alike. -/
theorem follow_congr {here' : Spot} {ss' : List Step}
    (h : advance root making here ss = advance root making here' ss') :
    follow root making links here ss = follow root making links here' ss' := by
  rw [follow_eq, h, ← follow_eq]

theorem follow_of_leads (h : Leads root links here ss x) :
    follow root false links here ss = .ok x := by
  induction h with
  | arrived =>
    rw [follow_eq]
    rfl
  | stay hstep hd _ ih => rw [follow_congr (advance_stay hstep hd _), ih]
  | up hd _ ih => rw [follow_congr (advance_up hd _), ih]
  | missing hd hsize hnone =>
    rw [follow_eq, advance_name hd]
    simp [hsize, hnone]
  | @enter links place n rest x f hd hsize hface hlink _ ih =>
    have hstep : advance root false (.inTree place) (.name n :: rest) =
        advance root false (.inTree (place ++ [n])) rest := by
      rw [advance_name hd, hface]
      cases f with
      | link target => exact absurd rfl (hlink target)
      | _ => simp [hsize]
    rw [follow_congr hstep, ih]
  | detour hd hsize hface htext _ ih =>
    rw [follow_eq, advance_name hd]
    simp [hsize, hface, htext, ih]

theorem leads_iff_follow : Leads root links here ss x ↔ follow root false links here ss = .ok x :=
  ⟨follow_of_leads, leads_of_follow⟩

end

/-! ## The same walk in another tree -/

/-- Whether walks go by an entry with this face. -/
def Face.isWay : Face → Bool
  | .directory _ => true
  | .link _ => true
  | _ => false

/-- Every directory and every link of one tree is in another. -/
def Node.WaysIn (root root' : Node) : Prop :=
  ∀ q f, root.face? q = some f → f.isWay = true → root'.face? q = some f

/-- The spot of what a walk ends at, or would make. -/
def Found.spot : Found → Spot
  | .entry spot => spot
  | .vacant directory n => .inTree (directory ++ [n])

/-- A walk may end at a spot: what is there is no link. -/
def Node.EndsAt (root : Node) (spot : Spot) : Prop :=
  ∀ place, spot = .inTree place →
    ∃ f, root.face? place = some f ∧ ∀ target, f ≠ .link target

section Transfer

variable {root root' : Node} {links : Nat} {here : Spot} {ss : List Step} {x : Found}

theorem Node.WaysIn.volumeOf (hways : root.WaysIn root') {v : Nat}
    (h : root.volumeOf here = some v) : root'.volumeOf here = some v := by
  induction here with
  | inTree place =>
    exact Node.volumeAt_eq_some_iff.mpr (hways _ _ (Node.volumeAt_eq_some_iff.mp h) rfl)
  | removed above ih => exact ih h

theorem Node.WaysIn.standsAt (hways : root.WaysIn root') (h : root.StandsAt here) :
    root'.StandsAt here :=
  h.imp fun _ => hways.volumeOf

theorem Node.StandsAt.endsAt (h : root.StandsAt here) : root.EndsAt here := by
  rintro place rfl
  obtain ⟨v, hv⟩ := Node.standsAt_inTree.mp h
  exact ⟨_, hv, fun _ => nofun⟩

theorem Leads.standsAt {step : Step} (h : Leads root links here (step :: ss) x) :
    root.StandsAt here := by
  cases h <;> assumption

/-- A walk goes the same way wherever its directories and links are, to
whatever is at its end there. -/
theorem Leads.transfer (hways : root.WaysIn root') (h : Leads root links here ss x)
    (hend : root'.EndsAt x.spot) : Leads root' links here ss (.entry x.spot) := by
  induction h with
  | arrived => exact .arrived
  | stay hstep hd _ ih => exact .stay hstep (hways.standsAt hd) (ih hend)
  | up hd _ ih => exact .up (hways.standsAt hd) (ih hend)
  | missing hd hsize hnone =>
    obtain ⟨f, hface, hlink⟩ := hend _ rfl
    exact .enter (hways.standsAt hd) hsize hface hlink .arrived
  | @enter links place n rest x f hd hsize hface hlink h ih =>
    cases rest with
    | nil =>
      -- The last step: what matters is what is at the end in the other tree.
      cases h
      obtain ⟨f', hface', hlink'⟩ := hend _ rfl
      exact .enter (hways.standsAt hd) hsize hface' hlink' .arrived
    | cons step rest =>
      obtain ⟨v, hv⟩ := Node.standsAt_inTree.mp h.standsAt
      exact .enter (hways.standsAt hd) hsize (hways _ _ hv rfl) (fun _ => nofun) (ih hend)
  | detour hd hsize hface htext _ ih =>
    exact .detour (hways.standsAt hd) hsize (hways _ _ hface rfl) htext (ih hend)

end Transfer

/-! ## A walk cut in two -/

/-- Steps lead from one spot to another by so many links, whatever is gone
on with there. -/
def Crosses (root : Node) (used : Nat) (here : Spot) (ss : List Step) (spot : Spot) : Prop :=
  ∀ more tail x, Leads root more spot tail x → Leads root (more + used) here (ss ++ tail) x

section Cutting

variable {root : Node} {links : Nat} {here spot : Spot} {ss rest : List Step} {n : Text}
  {x : Found}

theorem crosses_nil : Crosses root 0 here [] here := fun _ _ _ htail => htail

theorem Crosses.trans {used used' : Nat} {spot' : Spot} (h : Crosses root used here ss spot)
    (h' : Crosses root used' spot rest spot') :
    Crosses root (used' + used) here (ss ++ rest) spot' := fun more tail x htail => by
  rw [List.append_assoc, ← Nat.add_assoc]
  exact h _ _ _ (h' more tail x htail)

/-- Steps that lead somewhere lead there also when nothing comes after. -/
theorem Crosses.leads {used : Nat} (h : Crosses root used here ss spot) :
    Leads root used here ss (.entry spot) := by
  simpa using h 0 [] _ .arrived

/-- A walk with steps left can be cut anywhere: the steps so far cross to a
spot, and the rest is walked from there with the links that are left. -/
theorem Leads.cut (h : Leads root links here (ss ++ rest) x) (hrest : rest ≠ []) :
    ∃ spot used left, links = left + used ∧ Crosses root used here ss spot ∧
      Leads root left spot rest x := by
  -- On the derivation; a link puts its own steps in front of those so far.
  generalize hwhole : ss ++ rest = whole at h
  induction h generalizing ss with
  | arrived => exact absurd (List.append_eq_nil_iff.mp hwhole).2 hrest
  | @stay links here step _ x hstep hd h ih =>
    cases ss with
    | nil =>
      obtain rfl : rest = _ := hwhole
      exact ⟨here, 0, links, rfl, crosses_nil, .stay hstep hd h⟩
    | cons s ss =>
      obtain ⟨rfl, htail⟩ := List.cons.inj hwhole
      obtain ⟨spot, used, left, rfl, hcross, hleft⟩ := ih htail
      exact ⟨spot, used, left, rfl, fun _ _ _ hon => .stay hstep hd (hcross _ _ _ hon), hleft⟩
  | @up links here _ x hd h ih =>
    cases ss with
    | nil =>
      obtain rfl : rest = _ := hwhole
      exact ⟨here, 0, links, rfl, crosses_nil, .up hd h⟩
    | cons s ss =>
      obtain ⟨rfl, htail⟩ := List.cons.inj hwhole
      obtain ⟨spot, used, left, rfl, hcross, hleft⟩ := ih htail
      exact ⟨spot, used, left, rfl, fun _ _ _ hon => .up hd (hcross _ _ _ hon), hleft⟩
  | @missing links place n hd hsize hnone =>
    cases ss with
    | nil =>
      obtain rfl : rest = _ := hwhole
      exact ⟨.inTree place, 0, links, rfl, crosses_nil, .missing hd hsize hnone⟩
    | cons s ss => exact absurd (List.append_eq_nil_iff.mp (List.cons.inj hwhole).2).2 hrest
  | @enter links place n _ x f hd hsize hface hlink h ih =>
    cases ss with
    | nil =>
      obtain rfl : rest = _ := hwhole
      exact ⟨.inTree place, 0, links, rfl, crosses_nil, .enter hd hsize hface hlink h⟩
    | cons s ss =>
      obtain ⟨rfl, htail⟩ := List.cons.inj hwhole
      obtain ⟨spot, used, left, rfl, hcross, hleft⟩ := ih htail
      exact ⟨spot, used, left, rfl,
        fun _ _ _ hon => .enter hd hsize hface hlink (hcross _ _ _ hon), hleft⟩
  | @detour links place n target _ x hd hsize hface htext h ih =>
    cases ss with
    | nil =>
      obtain rfl : rest = _ := hwhole
      exact ⟨.inTree place, 0, links + 1, rfl, crosses_nil, .detour hd hsize hface htext h⟩
    | cons s ss =>
      obtain ⟨rfl, htail⟩ := List.cons.inj hwhole
      obtain ⟨spot, used, left, rfl, hcross, hleft⟩ := @ih (steps target ++ ss)
        ((List.append_assoc _ _ _).trans (congrArg _ htail))
      refine ⟨spot, used + 1, left, rfl, fun _ _ _ hon => .detour hd hsize hface htext ?_, hleft⟩
      have hdetour := hcross _ _ _ hon
      rwa [List.append_assoc] at hdetour

/-- A walk by a name goes to a directory first, and looks the name up there. -/
theorem Leads.split (h : Leads root links here (ss ++ .name n :: rest) x) :
    ∃ spot left, Leads root links here (ss ++ [.slash]) (.entry spot) ∧
      Leads root left spot (.name n :: rest) x := by
  obtain ⟨spot, used, left, rfl, hcross, hname⟩ := h.cut (by simp)
  exact ⟨spot, left, hcross _ _ _ (.stay (.inr rfl) hname.standsAt .arrived), hname⟩

/-- A walk that ends with a slash ends in a directory. -/
theorem Leads.of_slash (h : Leads root links here (ss ++ [.slash]) x) :
    ∃ spot, x = .entry spot ∧ root.StandsAt spot := by
  obtain ⟨spot, _, _, -, -, hslash⟩ := h.cut (by simp)
  cases hslash with
  | stay _ hd hend =>
    cases hend
    exact ⟨spot, rfl, hd⟩

/-- A walk to a directory stands in it, and may be gone on with. -/
theorem Leads.append (h : Leads root links here (ss ++ [.slash]) (.entry spot)) :
    root.StandsAt spot ∧ ∃ left, ∀ tail y, Leads root left spot tail y →
      Leads root links here (ss ++ tail) y := by
  obtain ⟨spot', used, left, rfl, hcross, hslash⟩ := h.cut (by simp)
  cases hslash with
  | stay _ hd hend =>
    cases hend
    exact ⟨hd, left, hcross left⟩

end Cutting

/-! ## What is at the end -/

section Ends

variable {root : Node} {links : Nat} {here spot : Spot} {ss : List Step}

/-- A walk that starts in a directory ends at no link. -/
theorem Leads.endsAt (h : Leads root links here ss (.entry spot)) (hd : root.StandsAt here) :
    root.EndsAt spot := by
  generalize hend : Found.entry spot = x at h
  induction h with
  | arrived =>
    cases hend
    exact hd.endsAt
  | stay _ _ _ ih => exact ih hd hend
  | up _ _ ih => exact ih hd.up hend
  | missing => cases hend
  | @enter links place n rest x f _ _ hface hlink h ih =>
    cases rest with
    | nil =>
      cases h
      cases hend
      rintro _ ⟨⟩
      exact ⟨f, hface, hlink⟩
    | cons step rest => exact ih h.standsAt hend
  | @detour links place n target rest x _ _ _ _ _ ih =>
    refine ih ?_ hend
    split
    · exact hd.atRoot
    · exact hd

/-- A walk that does not end at a directory may as well be making what it
does not find: no slash follows its last name. -/
theorem Leads.follow_making {x : Found} (h : Leads root links here ss x)
    (hplain : ∀ spot, x = .entry spot → ¬ root.StandsAt spot) :
    follow root true links here ss = .ok x := by
  induction h with
  | arrived =>
    rw [follow_eq]
    rfl
  | stay hstep hd _ ih => rw [follow_congr (advance_stay hstep hd _), ih hplain]
  | up hd _ ih => rw [follow_congr (advance_up hd _), ih hplain]
  | missing hd hsize hnone =>
    rw [follow_eq, advance_name hd]
    simp [hsize, hnone]
  | @enter links place n rest x f hd hsize hface hlink h ih =>
    have hrest : rest ≠ [.slash] := by
      rintro rfl
      have hslash : Leads root links _ ([] ++ [.slash]) x := h
      obtain ⟨spot, rfl, hspot⟩ := hslash.of_slash
      exact hplain spot rfl hspot
    have hstep : advance root true (.inTree place) (.name n :: rest) =
        advance root true (.inTree (place ++ [n])) rest := by
      rw [advance_name hd, hface]
      cases f with
      | link target => exact absurd rfl (hlink target)
      | _ => simp [hsize, hrest]
    rw [follow_congr hstep, ih hplain]
  | @detour links place n target rest x hd hsize hface htext h ih =>
    have hrest : rest ≠ [.slash] := by
      rintro rfl
      obtain ⟨spot, rfl, hspot⟩ := h.of_slash
      exact hplain spot rfl hspot
    rw [follow_eq, advance_name hd]
    simp [hrest, hsize, hface, htext, ih hplain]

end Ends

end Host

end FileShell

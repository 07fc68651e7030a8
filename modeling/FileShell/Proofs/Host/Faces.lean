/-
FileShell.Proofs.Host.Faces — a tree read place by place, and what one
change leaves as it was.

The `Face` of an entry is its kind and its content without what is below
it. Trees with the same face at every place hold the same entries, so a
change is told by the places whose face it may change. Each of the three
changes there are (`put`, `remove`, `replaceAt`) gets two laws: the face
of every place that is not at or below the changed one stays
(`face?_put_off`, ...), and what is at the changed place is what was put
there (`find?_put`, ...). Where neither the old entry nor the new one is a
directory, nothing is below, and the change shows at one place only
(`face?_eq_of_ne`).
-/
import FileShell.Host.Content

namespace FileShell

namespace Host

/-! ## Entries by name -/

namespace Entries

theorem get?_put (es : Entries) (name : Text) (node : Node) :
    get? (put es name node) name = some node := by
  induction es with
  | nil => simp [get?, put]
  | cons e rest ih =>
    simp only [get?] at ih ⊢
    rw [put]
    split
    · exact List.lookup_cons_self
    · next hne =>
      have : (name == e.1) = false := beq_eq_false_iff_ne.mpr (Ne.symm hne)
      rw [List.lookup_cons, this]
      exact ih

theorem get?_put_of_ne (es : Entries) {name other : Text} (node : Node) (h : other ≠ name) :
    get? (put es name node) other = get? es other := by
  have hother : (other == name) = false := beq_eq_false_iff_ne.mpr h
  induction es with
  | nil => simp [get?, put, List.lookup_cons, hother]
  | cons e rest ih =>
    simp only [get?] at ih ⊢
    rw [put]
    split
    · next he => rw [List.lookup_cons, List.lookup_cons, he, hother]
    · rw [List.lookup_cons, List.lookup_cons, ih]

theorem get?_remove (es : Entries) (name : Text) : get? (remove es name) name = none := by
  induction es with
  | nil => rfl
  | cons e rest ih =>
    simp only [get?, remove] at ih ⊢
    by_cases he : e.1 = name
    · rwa [List.filter_cons_of_neg (by simpa using he)]
    · have : (name == e.1) = false := beq_eq_false_iff_ne.mpr (Ne.symm he)
      rw [List.filter_cons_of_pos (by simpa using he), List.lookup_cons, this]
      exact ih

theorem get?_remove_of_ne (es : Entries) {name other : Text} (h : other ≠ name) :
    get? (remove es name) other = get? es other := by
  induction es with
  | nil => rfl
  | cons e rest ih =>
    simp only [get?, remove] at ih ⊢
    by_cases he : e.1 = name
    · have : (other == e.1) = false := beq_eq_false_iff_ne.mpr (he ▸ h)
      rw [List.filter_cons_of_neg (by simpa using he), List.lookup_cons, this]
      exact ih
    · rw [List.filter_cons_of_pos (by simpa using he), List.lookup_cons, List.lookup_cons, ih]

end Entries

/-! ## Faces -/

/-- An entry without what is below it. -/
inductive Face where
  | directory (volume : Nat)
  | file (content : Bytes)
  | link (target : Path)
  | device (kind : Device)
  deriving DecidableEq, Repr

/-- The face of a node. -/
def Node.face : Node → Face
  | .directory v _ => .directory v
  | .file content => .file content
  | .link target => .link target
  | .device kind => .device kind

/-- Whether something can be below an entry with this face. -/
def Face.isDirectory : Face → Bool
  | .directory _ => true
  | _ => false

theorem Node.isDirectory_face (node : Node) : node.face.isDirectory = node.isDirectory := by
  cases node <;> rfl

namespace Node

/-- The face of the entry at a place. -/
def face? (root : Node) (place : Place) : Option Face := (root.find? place).map face

@[simp] theorem find?_nil (node : Node) : node.find? [] = some node := by rw [find?]

theorem find?_cons (node : Node) (name : Text) (rest : Place) :
    node.find? (name :: rest) = (node.child? name).bind (·.find? rest) := by rw [find?]

theorem find?_append (node : Node) (p q : Place) :
    node.find? (p ++ q) = (node.find? p).bind (·.find? q) := by
  induction p generalizing node with
  | nil => simp
  | cons name rest ih =>
    rw [List.cons_append, find?_cons, find?_cons, Option.bind_assoc]
    exact congrArg _ (funext fun n => ih n)

theorem face?_of_find? {root node : Node} {place : Place} (h : root.find? place = some node) :
    root.face? place = some node.face := by
  rw [face?, h, Option.map_some]

theorem find?_file_iff {root : Node} {place : Place} {content : Bytes} :
    root.find? place = some (.file content) ↔ root.face? place = some (.file content) := by
  rw [face?]
  rcases root.find? place with _ | node
  · simp
  · cases node <;> simp [face]

theorem find?_device_iff {root : Node} {place : Place} {kind : Device} :
    root.find? place = some (.device kind) ↔ root.face? place = some (.device kind) := by
  rw [face?]
  rcases root.find? place with _ | node
  · simp
  · cases node <;> simp [face]

theorem find?_eq_none_iff {root : Node} {place : Place} :
    root.find? place = none ↔ root.face? place = none := by
  rw [face?, Option.map_eq_none_iff]

theorem volumeAt_eq_some_iff {root : Node} {place : Place} {v : Nat} :
    root.volumeAt place = some v ↔ root.face? place = some (.directory v) := by
  rw [volumeAt, face?]
  rcases root.find? place with _ | node
  · simp
  · cases node <;> simp [face]

/-- Whether something can be below a place. -/
def IsDirectoryAt (root : Node) (place : Place) : Prop :=
  ∃ f, root.face? place = some f ∧ f.isDirectory = true

theorem not_isDirectoryAt {root : Node} {place : Place} {o : Option Face}
    (ho : root.face? place = o) (hplain : ∀ f, o = some f → f.isDirectory = false) :
    ¬ root.IsDirectoryAt place := by
  rintro ⟨f, hf, hdirectory⟩
  rw [hplain f (ho.symm.trans hf)] at hdirectory
  cases hdirectory

/-- Nothing can be below what is not there. -/
theorem not_isDirectoryAt_none {root : Node} {place : Place} (h : root.face? place = none) :
    ¬ root.IsDirectoryAt place :=
  not_isDirectoryAt h fun _ => nofun

/-- Nothing can be below an entry that is no directory. -/
theorem not_isDirectoryAt_some {root : Node} {place : Place} {f : Face}
    (h : root.face? place = some f) (hplain : f.isDirectory = false) :
    ¬ root.IsDirectoryAt place :=
  not_isDirectoryAt h fun _ he => Option.some.inj he ▸ hplain

/-- Below a place that is no directory there is nothing. -/
theorem face?_below {root : Node} {place : Place} (h : ¬ root.IsDirectoryAt place)
    (name : Text) (rest : Place) : root.face? (place ++ name :: rest) = none := by
  rw [face?, find?_append]
  cases hnode : root.find? place with
  | none => rfl
  | some node =>
    have hplain : node.isDirectory = false := by
      rw [← node.isDirectory_face]
      simpa [IsDirectoryAt, face?, hnode] using h
    cases node with
    | directory v es => cases hplain
    | _ => rfl

/-- What lies at or below a place is told apart from the rest by its names. -/
theorem exists_below_of_prefix {place q : Place} (h : place <+: q) (hne : q ≠ place) :
    ∃ name rest, q = place ++ name :: rest := by
  obtain ⟨below, rfl⟩ := h
  cases below with
  | nil => exact absurd (List.append_nil place) hne
  | cons name rest => exact ⟨name, rest, rfl⟩

/-- Trees that differ at or below one place only, and have no directory
there, differ at that place only. -/
theorem face?_eq_of_ne {root root' : Node} {place : Place}
    (hoff : ∀ q, ¬ place <+: q → root'.face? q = root.face? q)
    (h : ¬ root.IsDirectoryAt place) (h' : ¬ root'.IsDirectoryAt place) {q : Place}
    (hne : q ≠ place) : root'.face? q = root.face? q := by
  by_cases hbelow : place <+: q
  · obtain ⟨name, rest, rfl⟩ := exists_below_of_prefix hbelow hne
    rw [face?_below h, face?_below h']
  · exact hoff q hbelow

/-! ## One change in a tree -/

/-- What is at and below the changed place. -/
theorem find?_modify (f : Node → Node) (root : Node) (place below : Place) :
    (root.modify f place).find? (place ++ below) =
      (root.find? place).bind fun node => (f node).find? below := by
  induction place generalizing root with
  | nil => rw [modify, List.nil_append, find?_nil, Option.bind_some]
  | cons name rest ih =>
    cases root with
    | directory v es =>
      rw [modify, List.cons_append]
      cases hget : Entries.get? es name with
      | none => simp only [find?_cons, child?, hget, Option.bind_none]
      | some child =>
        simp only [find?_cons, child?, hget, Entries.get?_put, Option.bind_some]
        exact ih child
    | _ => rfl

/-- The face of every place that is not at or below the changed one. -/
theorem face?_modify_off (f : Node → Node) (root : Node) {place q : Place}
    (h : ¬ place <+: q) : (root.modify f place).face? q = root.face? q := by
  induction place generalizing root q with
  | nil => exact absurd q.nil_prefix h
  | cons name rest ih =>
    cases root with
    | directory v es =>
      rw [modify]
      cases hget : Entries.get? es name with
      | none => rfl
      | some child =>
        cases q with
        | nil => rfl
        | cons other below =>
          simp only [face?, find?_cons, child?]
          by_cases hname : other = name
          · subst hname
            have hbelow : ¬ rest <+: below := fun hp => h ((List.cons_prefix_cons).mpr ⟨rfl, hp⟩)
            simpa only [hget, Entries.get?_put, Option.bind_some, face?] using ih child hbelow
          · rw [Entries.get?_put_of_ne es _ hname]
    | _ => rfl

/-- A change to one name of a directory: the face of every place that is
not at or below that name. -/
theorem face?_edit_off {f : Entries → Entries} {name : Text}
    (hf : ∀ es other, other ≠ name → Entries.get? (f es) other = Entries.get? es other)
    (root : Node) {directory q : Place} (h : ¬ directory ++ [name] <+: q) :
    (root.edit directory f).face? q = root.face? q := by
  by_cases hq : directory <+: q
  · obtain ⟨below, rfl⟩ := hq
    rw [edit, face?, face?, find?_modify, find?_append]
    cases root.find? directory with
    | none => rfl
    | some node =>
      cases below with
      | nil => cases node <;> rfl
      | cons other rest =>
        have hother : other ≠ name := by
          rintro rfl
          exact h ⟨rest, by simp⟩
        simp only [Option.bind_some, find?_cons]
        cases node with
        | directory v es => simp only [withEntries, child?, hf es other hother]
        | _ => rfl
  · exact face?_modify_off _ _ hq

/-- A change to one name of a directory: what is at that name and below. -/
theorem find?_edit (f : Entries → Entries) {root : Node} {directory : Place} {v : Nat}
    (h : root.face? directory = some (.directory v)) (name : Text) (below : Place) :
    ∃ es, (root.edit directory f).find? (directory ++ name :: below) =
      (Entries.get? (f es) name).bind (·.find? below) := by
  obtain ⟨node, hnode, hface⟩ := Option.map_eq_some_iff.mp h
  cases node with
  | directory v' es =>
    refine ⟨es, ?_⟩
    rw [edit, find?_modify, hnode, Option.bind_some, find?_cons]
    rfl
  | _ => cases hface

end Node

/-! ## The three changes of a machine -/

section Changes

variable (h : Host) {directory place q : Place} {name : Text} {v : Nat}

theorem face?_put_off (node : Node) (hq : ¬ directory ++ [name] <+: q) :
    (h.put directory name node).root.face? q = h.root.face? q :=
  Node.face?_edit_off (fun es _ hne => Entries.get?_put_of_ne es node hne) h.root hq

theorem find?_put (node : Node) (hd : h.root.face? directory = some (.directory v)) :
    (h.put directory name node).root.find? (directory ++ [name]) = some node := by
  obtain ⟨es, hes⟩ := Node.find?_edit (fun es => Entries.put es name node) hd name []
  rw [Entries.get?_put, Option.bind_some, Node.find?_nil] at hes
  exact hes

theorem face?_remove_off (hq : ¬ directory ++ [name] <+: q) :
    (h.remove directory name).root.face? q = h.root.face? q :=
  Node.face?_edit_off (fun es _ hne => Entries.get?_remove_of_ne es hne) h.root hq

theorem find?_remove (hd : h.root.face? directory = some (.directory v)) :
    (h.remove directory name).root.find? (directory ++ [name]) = none := by
  obtain ⟨es, hes⟩ := Node.find?_edit (fun es => Entries.remove es name) hd name []
  rw [Entries.get?_remove, Option.bind_none] at hes
  exact hes

theorem face?_replaceAt_off (node : Node) (hq : ¬ place <+: q) :
    (h.replaceAt place node).root.face? q = h.root.face? q :=
  Node.face?_modify_off _ h.root hq

theorem find?_replaceAt (node : Node) {old : Node} (hold : h.root.find? place = some old) :
    (h.replaceAt place node).root.find? place = some node := by
  have := Node.find?_modify (fun _ => node) h.root place []
  rwa [List.append_nil, hold, Option.bind_some, Node.find?_nil] at this

end Changes

end Host

end FileShell

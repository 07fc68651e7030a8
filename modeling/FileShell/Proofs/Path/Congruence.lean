/-
FileShell.Proofs.Path.Congruence — folding is a normal form, and joining
respects it.

What a path is folded to depends on two things only: whether it is
absolute, and the names and `..` behind its head. Both are in the `stack`
that folding leaves, and the folded path is that stack written down
(`normal_eq_written`).

A stack has one of two shapes (`IsShaped`): ordinary names on top of the
root (`Rooted`) or on top of some `..` (`Climbing`). One that is written
down and folded again comes back as it was (`stack_written`). So the folded
paths, which are told by their text (`IsFolded`), are those that folding
leaves alone (`isFolded_normal`, `normal_of_isFolded`).

A relative path goes on folding where the directory in front of it has
stopped (`stack_join`). So it makes no difference whether the directory is
folded first (`normal_join_normal`), and an argument may be resolved in one
go or part by part (`resolve_resolve`). `normal_congruence` puts these laws
together.
-/
import FileShell.Proofs.Path.Components

namespace FileShell

namespace Path

/-- Lexically folded: a root and ordinary names; some `..` and ordinary
names, but not none of both; or a lone `.`. -/
inductive IsFolded : Path → Prop where
  | absolute {p : Path} (h : p.IsNormal) : IsFolded p
  | relative (ups : Nat) {names : List Text} (hnames : ∀ n ∈ names, IsOrdinary n)
      (hsome : ¬ (ups = 0 ∧ names = [])) :
      IsFolded ⟨Text.joined '/' (List.replicate ups ['.', '.'] ++ names)⟩
  | here : IsFolded ⟨['.']⟩

variable {p q : Path}

/-! ## What folding looks at -/

/-- The components that a path leaves when it is folded, the last one on top. -/
def stack (p : Path) : List Component :=
  p.body.foldl foldStep (if p.isAbsolute then [.root] else [])

/-- The path that a stack is written as. -/
def written (stack : List Component) : Path :=
  match stack.reverse with
  | [] => ⟨['.']⟩
  | cs => ofComponents cs

theorem fold_components (p : Path) : fold p.components = p.stack.reverse := by
  have hhead : p.split.1.toList.foldl foldStep [] = if p.isAbsolute then [.root] else [] := by
    obtain ⟨text⟩ := p
    simp only [split]
    split <;> simp_all [isAbsolute, foldStep]
  rw [fold, components_eq, List.foldl_append, hhead, stack]

/-- Folding leaves a stack and writes it down. -/
theorem normal_eq_written (p : Path) : p.normal = written p.stack :=
  congrArg (fun cs => match cs with | [] => Path.mk ['.'] | cs => ofComponents cs)
    (fold_components p)

/-- Paths with the same stack are the same once folded. -/
theorem normal_congr (h : p.stack = q.stack) : p.normal = q.normal := by
  rw [normal_eq_written, normal_eq_written, h]

/-! ## The shapes of a stack -/

/-- A stack of ordinary names on top of some `..`. -/
def Climbing (stack : List Component) : Prop :=
  ∃ (ups : Nat) (names : List Text), (∀ n ∈ names, IsOrdinary n) ∧
    stack = names.map .name ++ List.replicate ups .parent

/-- A stack that a path can leave. -/
def IsShaped (stack : List Component) : Prop := Rooted stack ∨ Climbing stack

theorem climbing_foldStep {stack : List Component} (h : Climbing stack) {c : Component}
    (hc : c.IsStep) : Climbing (foldStep stack c) := by
  obtain ⟨ups, names, hnames, rfl⟩ := h
  rcases hc with rfl | ⟨n, hn, rfl⟩
  · cases names with
    | nil =>
      refine ⟨ups + 1, [], by simp, ?_⟩
      cases ups <;> rfl
    | cons m names =>
      exact ⟨ups, names, fun k hk => hnames k (List.mem_cons_of_mem _ hk), rfl⟩
  · exact ⟨ups, n :: names, List.forall_mem_cons.mpr ⟨hn, hnames⟩, rfl⟩

theorem climbing_foldl {cs : List Component} (hcs : ∀ c ∈ cs, c.IsStep) {stack : List Component}
    (h : Climbing stack) : Climbing (cs.foldl foldStep stack) := by
  induction cs generalizing stack with
  | nil => exact h
  | cons c cs ih =>
    obtain ⟨hc, hcs⟩ := List.forall_mem_cons.mp hcs
    exact ih hcs (climbing_foldStep h hc)

theorem rooted_stack (h : p.isAbsolute = true) : Rooted p.stack := by
  rw [stack, if_pos h]
  exact rooted_foldl (fun c hc => isStep_of_mem_body hc) ⟨[], by simp, rfl⟩

theorem climbing_stack (h : p.isAbsolute = false) : Climbing p.stack := by
  rw [stack, if_neg (by simp [h])]
  exact climbing_foldl (fun c hc => isStep_of_mem_body hc) ⟨0, [], by simp, rfl⟩

theorem isShaped_stack (p : Path) : IsShaped p.stack := by
  cases h : p.isAbsolute with
  | true => exact .inl (rooted_stack h)
  | false => exact .inr (climbing_stack h)

/-! ## Steps written down -/

theorem Component.IsStep.ofPiece?_text {c : Component} (h : c.IsStep) :
    ofPiece? c.text = some c := by
  rcases h with rfl | ⟨n, hn, rfl⟩
  · rfl
  · exact ofPiece?_of_isOrdinary hn

theorem Component.IsStep.slash_notMem {c : Component} (h : c.IsStep) : '/' ∉ c.text := by
  rcases h with rfl | ⟨n, hn, rfl⟩
  · decide
  · exact hn.2.2.2

section

variable {cs : List Component} (hcs : ∀ c ∈ cs, c.IsStep)
include hcs

theorem text_ofComponents_of_isStep :
    (ofComponents cs).text = Text.joined '/' (cs.map Component.text) := by
  cases cs with
  | nil => rfl
  | cons c cs => rcases hcs c (by simp) with rfl | ⟨n, _, rfl⟩ <;> rfl

theorem pieces_ofComponents (hne : cs ≠ []) :
    Text.pieces '/' (ofComponents cs).text = cs.map Component.text := by
  rw [text_ofComponents_of_isStep hcs]
  exact Text.pieces_joined (by simpa using hne)
    (List.forall_mem_map.mpr fun c hc => (hcs c hc).slash_notMem)

/-- The path that is written from steps asks for them. -/
theorem body_ofComponents : (ofComponents cs).body = cs := by
  by_cases hne : cs = []
  · subst hne
    rfl
  · rw [body, pieces_ofComponents hcs hne, List.filterMap_map]
    exact (List.filterMap_congr fun c hc => (hcs c hc).ofPiece?_text).trans List.filterMap_some

/-- The path that is written from steps is relative. -/
theorem isAbsolute_ofComponents : (ofComponents cs).isAbsolute = false := by
  cases hcase : (ofComponents cs).isAbsolute with
  | false => rfl
  | true =>
    obtain ⟨rest, hrest⟩ := exists_text_of_isAbsolute hcase
    cases cs with
    | nil => cases hrest
    | cons c cs =>
      -- In front of the slash there would be an empty piece, and no step is spelled so.
      have hpieces := pieces_ofComponents hcs (by simp)
      rw [hrest, Text.pieces, if_pos rfl] at hpieces
      have hstep := (hcs c (by simp)).ofPiece?_text
      rw [← (List.cons.inj hpieces).1] at hstep
      cases hstep

end

/-! ## Stacks written down -/

theorem foldl_names (names : List Text) (stack : List Component) :
    (names.map .name).foldl foldStep stack = (names.map .name).reverse ++ stack := by
  induction names generalizing stack with
  | nil => rfl
  | cons n names ih => simp [foldStep, ih]

theorem foldl_ups (ups : Nat) :
    (List.replicate ups .parent).foldl foldStep [] = List.replicate ups Component.parent := by
  induction ups with
  | zero => rfl
  | succ ups ih =>
    rw [List.replicate_succ', List.foldl_append, ih, ← List.replicate_succ', List.replicate_succ]
    cases ups <;> rfl

section

variable {s : List Component}

theorem written_of_rooted (h : Rooted s) :
    ∃ names : List Text, (∀ n ∈ names, IsOrdinary n) ∧ s = (names.map .name).reverse ++ [.root] ∧
      written s = ofComponents (.root :: names.map .name) := by
  obtain ⟨names, hnames, rfl⟩ := h
  refine ⟨names.reverse, fun n hn => hnames n (List.mem_reverse.mp hn), ?_, ?_⟩
  · rw [List.map_reverse, List.reverse_reverse]
  · simp [written]

theorem isStep_of_climbing (h : Climbing s) : ∀ c ∈ s.reverse, c.IsStep := by
  obtain ⟨ups, names, hnames, rfl⟩ := h
  intro c hc
  rcases List.mem_append.mp (List.mem_reverse.mp hc) with hc | hc
  · obtain ⟨n, hn, rfl⟩ := List.mem_map.mp hc
    exact .inr ⟨n, hnames n hn, rfl⟩
  · exact .inl (List.eq_of_mem_replicate hc)

theorem written_of_climbing (h : Climbing s) :
    (written s).isAbsolute = false ∧ (written s).body = s.reverse := by
  rw [written]
  split
  · next hnil => exact ⟨rfl, hnil.symm⟩
  · exact ⟨isAbsolute_ofComponents (isStep_of_climbing h),
      body_ofComponents (isStep_of_climbing h)⟩

/-- A stack that is written down is folded to the same again. -/
theorem stack_written (h : IsShaped s) : (written s).stack = s := by
  rcases h with hrooted | hclimbing
  · obtain ⟨names, hnames, rfl, hwritten⟩ := written_of_rooted hrooted
    have hcomponents := components_ofComponents hnames
    have habsolute : (ofComponents (.root :: names.map .name)).isAbsolute = true := rfl
    rw [components_of_isAbsolute habsolute] at hcomponents
    rw [hwritten, stack, if_pos habsolute, (List.cons.inj hcomponents).2, foldl_names]
  · obtain ⟨hrelative, hbody⟩ := written_of_climbing hclimbing
    obtain ⟨ups, names, -, rfl⟩ := hclimbing
    rw [stack, hrelative, if_neg (by simp), hbody, List.reverse_append, List.reverse_replicate,
      List.foldl_append, foldl_ups, ← List.map_reverse, foldl_names, List.map_reverse,
      List.reverse_reverse]

theorem written_climbing {ups : Nat} {names : List Text} (hnames : ∀ n ∈ names, IsOrdinary n)
    (hsome : ¬ (ups = 0 ∧ names = [])) :
    written (names.map .name ++ List.replicate ups .parent) =
      ⟨Text.joined '/' (List.replicate ups ['.', '.'] ++ names.reverse)⟩ := by
  have hclimbing : Climbing (names.map .name ++ List.replicate ups .parent) :=
    ⟨ups, names, hnames, rfl⟩
  have htext := text_ofComponents_of_isStep (isStep_of_climbing hclimbing)
  rw [written]
  split
  · next hnil => exact absurd (by simpa [and_comm] using hnil) hsome
  · refine (congrArg Path.mk htext).trans ?_
    simp [Component.text, Function.comp_def]

/-- What a stack is written as is in one of the three forms. -/
theorem isFolded_written (h : IsShaped s) : (written s).IsFolded := by
  rcases h with hrooted | ⟨ups, names, hnames, rfl⟩
  · obtain ⟨names, hnames, -, hwritten⟩ := written_of_rooted hrooted
    exact .absolute ⟨names, hnames, hwritten ▸ text_ofComponents names⟩
  · by_cases hnone : ups = 0 ∧ names = []
    · obtain ⟨rfl, rfl⟩ := hnone
      exact .here
    · rw [written_climbing hnames hnone]
      exact .relative ups (fun n hn => hnames n (List.mem_reverse.mp hn)) (by simpa using hnone)

/-- A path that is written from names is what their stack is written as. -/
theorem eq_written_of_text {p : Path} {names : List Text}
    (htext : p.text = '/' :: Text.joined '/' names) :
    p = written ((names.map .name).reverse ++ [.root]) := by
  rw [← text_ofComponents] at htext
  exact (congrArg Path.mk htext).trans (by simp [written])

/-- A path in one of the three forms is what some stack is written as. -/
theorem exists_written_of_isFolded (h : p.IsFolded) : ∃ s, IsShaped s ∧ p = written s := by
  cases h with
  | absolute h =>
    obtain ⟨names, hnames, htext⟩ := h
    exact ⟨_, .inl ⟨names.reverse, fun n hn => hnames n (List.mem_reverse.mp hn),
      by rw [List.map_reverse]⟩, eq_written_of_text htext⟩
  | @relative ups names hnames hsome =>
    have hrev : ∀ n ∈ names.reverse, IsOrdinary n := fun n hn => hnames n (List.mem_reverse.mp hn)
    refine ⟨_, .inr ⟨ups, names.reverse, hrev, rfl⟩, ?_⟩
    rw [written_climbing hrev (by simpa using hsome), List.reverse_reverse]
  | here => exact ⟨[], .inr ⟨0, [], by simp, rfl⟩, rfl⟩

end

/-! ## The forms of a folded path -/

theorem isFolded_normal (p : Path) : p.normal.IsFolded :=
  normal_eq_written p ▸ isFolded_written (isShaped_stack p)

/-- A path in one of the three forms is left alone. -/
theorem normal_of_isFolded (h : p.IsFolded) : p.normal = p := by
  obtain ⟨s, hs, rfl⟩ := exists_written_of_isFolded h
  rw [normal_eq_written, stack_written hs]

theorem isAbsolute_normal (p : Path) : p.normal.isAbsolute = p.isAbsolute := by
  cases h : p.isAbsolute with
  | true => exact (isNormal_normal h).isAbsolute
  | false => rw [normal_eq_written, (written_of_climbing (climbing_stack h)).1]

theorem stack_normal (p : Path) : p.normal.stack = p.stack := by
  rw [normal_eq_written, stack_written (isShaped_stack p)]

/-! ## Joining -/

theorem join_of_isAbsolute (dir : Path) (h : p.isAbsolute = true) : dir.join p = p := by
  rw [join, if_pos h]

/-- Whether a path is absolute is seen from its first character. -/
theorem isAbsolute_cons (c : Char) (rest : Text) :
    Path.isAbsolute ⟨c :: rest⟩ = decide (c = '/') := by
  by_cases h : c = '/'
  · subst h
    rfl
  · simp [isAbsolute, h]

theorem isAbsolute_join_of_relative (dir : Path) (h : p.isAbsolute = false) :
    (dir.join p).isAbsolute = dir.isAbsolute := by
  obtain ⟨text⟩ := dir
  rw [join, if_neg (by simp [h])]
  cases text with
  | nil => exact h
  | cons c rest =>
    split
    · next hnone => simp at hnone
    · rw [List.cons_append, isAbsolute_cons, isAbsolute_cons]
    · rw [List.cons_append, isAbsolute_cons, isAbsolute_cons]

/-- A relative path is folded onto what its directory is folded to. -/
theorem stack_join (dir : Path) (h : p.isAbsolute = false) :
    (dir.join p).stack = p.body.foldl foldStep dir.stack := by
  rw [stack, isAbsolute_join_of_relative dir h, body_join dir h, List.foldl_append, stack]

/-- It makes no difference whether the directory is folded first. -/
theorem normal_join_normal (p q : Path) : (p.normal.join q).normal = (p.join q).normal := by
  cases h : q.isAbsolute with
  | true => rw [join_of_isAbsolute _ h, join_of_isAbsolute _ h]
  | false =>
    refine normal_congr ?_
    rw [stack_join _ h, stack_join _ h, stack_normal]

/-- Two paths with a slash between them are the second taken from the first. -/
theorem stack_join_slash (dir : Path) {a b : Text} (ha : a ≠ [])
    (hb : Path.isAbsolute ⟨b⟩ = false) :
    (dir.join ⟨a ++ '/' :: b⟩).stack = ((dir.join ⟨a⟩).join ⟨b⟩).stack := by
  have habsolute : Path.isAbsolute ⟨a ++ '/' :: b⟩ = Path.isAbsolute ⟨a⟩ := by
    obtain ⟨c, rest, rfl⟩ := List.exists_cons_of_ne_nil ha
    rw [List.cons_append, isAbsolute_cons, isAbsolute_cons]
  have hbody : body ⟨a ++ '/' :: b⟩ = body ⟨a⟩ ++ body ⟨b⟩ := by
    rw [body, body, body, Text.pieces_append_sep, List.filterMap_append]
  rw [stack_join _ hb]
  cases h : Path.isAbsolute ⟨a⟩ with
  | true =>
    rw [join_of_isAbsolute _ (habsolute.trans h), join_of_isAbsolute _ h, stack, stack, habsolute,
      hbody, List.foldl_append]
  | false =>
    rw [stack_join _ (habsolute.trans h), stack_join _ h, hbody, List.foldl_append]

/-- An argument can be resolved in two parts. -/
theorem resolve_resolve (dir : Path) {a b : Text} (ha : a ≠ [])
    (hb : Path.isAbsolute ⟨b⟩ = false) :
    (dir.resolve a).resolve b = dir.resolve (a ++ '/' :: b) := by
  rw [resolve, resolve, normal_join_normal]
  exact (normal_congr (stack_join_slash dir ha hb)).symm

/-! ## A `..` and the path above -/

/-- What a normal path leaves when it is folded is its names. -/
theorem stack_of_text {names : List Text} (hnames : ∀ n ∈ names, IsOrdinary n)
    (htext : p.text = '/' :: Text.joined '/' names) :
    p.stack = (names.map .name).reverse ++ [.root] := by
  have hrooted : Rooted ((names.map .name).reverse ++ [.root]) :=
    ⟨names.reverse, fun n hn => hnames n (List.mem_reverse.mp hn), by rw [List.map_reverse]⟩
  rw [eq_written_of_text htext, stack_written (.inl hrooted)]

/-- The path above a normal one other than the root is what any argument
resolves to that asks for nothing but a `..`. -/
theorem parent?_eq_resolve (h : p.IsNormal) (hroot : p ≠ root) {arg : Text}
    (hrelative : Path.isAbsolute ⟨arg⟩ = false) (harg : body ⟨arg⟩ = [.parent]) :
    p.parent? = some (p.resolve arg) := by
  obtain ⟨names, hnames, htext⟩ := h
  rcases List.eq_nil_or_concat names with rfl | ⟨init, last, rfl⟩
  · exact absurd (congrArg Path.mk htext) hroot
  · rw [List.concat_eq_append] at htext hnames
    have hstack : (p.join ⟨arg⟩).stack = (init.map .name).reverse ++ [.root] := by
      rw [stack_join _ hrelative, harg, stack_of_text hnames htext]
      simp [foldStep]
    rw [parent?_of_text hnames htext, resolve, normal_eq_written, hstack]
    exact congrArg some (eq_written_of_text rfl)

/-- Folding leaves a path in one of the three forms, absolute exactly if it
was, and leaves a folded path alone. It can be done before a path is joined
or after; and so resolving an argument, and another one from there, is
resolving the two with a slash between them. -/
theorem normal_congruence (p : Path) :
    p.normal.IsFolded ∧
    p.normal.isAbsolute = p.isAbsolute ∧
    p.normal.normal = p.normal ∧
    (∀ q, (p.normal.join q).normal = (p.join q).normal) ∧
    (∀ a b, a ≠ [] → Path.isAbsolute ⟨b⟩ = false →
      (p.resolve a).resolve b = p.resolve (a ++ '/' :: b)) :=
  ⟨isFolded_normal p, isAbsolute_normal p, normal_of_isFolded (isFolded_normal p),
    normal_join_normal p, fun _ _ ha hb => resolve_resolve p ha hb⟩

/-- From a relative directory a `..` is kept, whether it is met in one
argument or after the slash at the end of another. -/
theorem normal_congruence_kept_parent :
    let p : Path := ⟨['a', '/', '.', '/', '/', 'b']⟩
    (p.resolve ['.', '.', '/']).resolve ['.', '.', '/', '.', '.', '/', 'c'] =
        p.resolve ['.', '.', '/', '/', '.', '.', '/', '.', '.', '/', 'c'] ∧
      p.resolve ['.', '.', '/', '/', '.', '.', '/', '.', '.', '/', 'c'] =
        ⟨['.', '.', '/', 'c']⟩ := by
  intro p
  obtain ⟨_, _, _, _, hparts⟩ := normal_congruence p
  exact ⟨hparts ['.', '.', '/'] ['.', '.', '/', '.', '.', '/', 'c'] (by decide) (by decide),
    by decide⟩

end Path

end FileShell

/-
FileShell.Proofs.Path.Beginning — which sessions start in an absolute
directory.

Wherever a session starts, the path is folded (`isFolded_startIn`). It is
absolute if the directory that was given is, or if the process directory,
which is absolute, can be asked for (`isAbsolute_startIn`); then every
argument resolves to an absolute path, since resolving keeps the head of
the directory or takes that of the argument (`isAbsolute_resolve`).

`starts_absolute_iff` puts this together. A session that is begun without
a directory always starts in an absolute one, the root at worst. A session
that is begun with a relative directory while the process directory is
gone does not: the relative path stays as it is (`starts_relative`).
-/
import FileShell.Proofs.Path.Congruence

namespace FileShell

namespace Path

/-- An argument resolves to an absolute path if the directory or the
argument is absolute, and only then. -/
theorem isAbsolute_resolve (dir : Path) (arg : Text) :
    (dir.resolve arg).isAbsolute = true ↔ dir.isAbsolute = true ∨ Path.isAbsolute ⟨arg⟩ = true := by
  rw [resolve, isAbsolute_normal]
  cases harg : Path.isAbsolute ⟨arg⟩ with
  | true => simp [join_of_isAbsolute dir harg, harg]
  | false => simp [isAbsolute_join_of_relative dir harg]

section

variable {process : Option Path}

theorem isFolded_startIn (process : Option Path) (dir : Path) : (startIn process dir).IsFolded := by
  unfold startIn
  split
  · exact isFolded_normal dir
  · cases process with
    | none => exact isFolded_normal dir
    | some p => exact isFolded_normal (p.join dir)

variable (hprocess : ∀ p, process = some p → p.isAbsolute = true)
include hprocess

theorem isAbsolute_startIn (dir : Path) :
    (startIn process dir).isAbsolute = true ↔ dir.isAbsolute = true ∨ process.isSome = true := by
  refine ⟨fun h => ?_, fun h => (isNormal_startIn hprocess h).isAbsolute⟩
  cases process with
  | some p => exact .inr rfl
  | none =>
    -- Nothing is put in front of the directory, and folding keeps its head.
    have hstart : startIn none dir = dir.normal := by
      unfold startIn
      split <;> rfl
    rw [hstart, isAbsolute_normal] at h
    exact .inl h

theorem isNormal_start : (start process).IsNormal := by
  refine isNormal_startIn hprocess ?_
  cases process with
  | some p => exact .inr rfl
  | none => exact .inl rfl

/-- A session that is begun without a directory starts in an absolute,
lexically normal one, and so are the paths that it resolves arguments to.
Begun with a directory, it starts in a folded path, which is absolute, and
so normal, exactly if that directory is absolute or the process directory
can be asked for. Otherwise the paths that it resolves are as the
arguments are. -/
theorem starts_absolute_iff :
    ((start process).IsNormal ∧ ∀ arg, ((start process).resolve arg).IsNormal) ∧
    ∀ dir : Path,
      (startIn process dir).IsFolded ∧
      ((startIn process dir).IsNormal ↔ dir.isAbsolute = true ∨ process.isSome = true) ∧
      ∀ arg, ((startIn process dir).resolve arg).isAbsolute = true ↔
        (dir.isAbsolute = true ∨ process.isSome = true) ∨ Path.isAbsolute ⟨arg⟩ = true := by
  have hstart : (start process).IsNormal := isNormal_start hprocess
  refine ⟨⟨hstart, isNormal_resolve hstart.isAbsolute⟩, fun dir => ⟨isFolded_startIn process dir,
    ⟨fun h => ?_, isNormal_startIn hprocess⟩, fun arg => ?_⟩⟩
  · exact (isAbsolute_startIn hprocess dir).mp h.isAbsolute
  · rw [isAbsolute_resolve, isAbsolute_startIn hprocess]

end

/-- A relative directory with a `..` too many, taken from the process
directory, and an argument resolved from there. -/
theorem starts_absolute_above_root :
    let start := startIn (some ⟨['/', 's', 'r', 'v']⟩) ⟨['.', '.', '/', '.', '.', '/', 'a']⟩
    start.IsNormal ∧ (start.resolve ['.', '.', '/', 'x']).isAbsolute = true := by
  intro start
  have hprocess (p : Path) (hp : some ⟨['/', 's', 'r', 'v']⟩ = some p) : p.isAbsolute = true :=
    Option.some.inj hp ▸ rfl
  obtain ⟨_, hgiven⟩ := starts_absolute_iff hprocess
  obtain ⟨_, hnormal, hresolve⟩ := hgiven ⟨['.', '.', '/', '.', '.', '/', 'a']⟩
  exact ⟨hnormal.mpr (.inr rfl), (hresolve ['.', '.', '/', 'x']).mpr (.inl (.inr rfl))⟩

/-- A relative directory while the process directory is gone: the session
is in a relative one, and resolves relative arguments to relative paths. -/
theorem starts_relative :
    (startIn none ⟨['d']⟩).isAbsolute = false ∧
      ((startIn none ⟨['d']⟩).resolve ['x']).isAbsolute = false :=
  ⟨by decide, by decide⟩

end Path

end FileShell

/-
FileShell.Proofs.Program.Runs — the ways a program can go.

`p.Runs es a` says that some answers lead `p` through the exchanges `es`,
in this order, to the value `a`. No world is named: a way is any branch of
the tree. It is what `Program.Keeps` quantifies over (`Keeps.of_runs`),
and it is needed where a statement speaks of what was answered before.

The run in a world is one of the ways (`runs_run`). The rules take a way
apart: `runs_ask_iff` for the first exchange, `runs_bind_iff` for one
program after another, `runs_attempt_bind_iff` where a failure skips what
follows.
-/
import FileShell.Proofs.Program.Keeps

namespace FileShell

namespace Program

variable {φ κ α β : Type}

/-- Some answers lead the program through these exchanges to this value. -/
inductive Runs : Program α → List Exchange → α → Prop where
  | done (a : α) : Runs (.done a) [] a
  | ask (r : Request) (answer : r.Answer) {next : r.Answer → Program α} {es : List Exchange}
      {a : α} (h : Runs (next answer) es a) : Runs (.ask r next) (⟨r, answer⟩ :: es) a

variable {p : Program α} {es : List Exchange}

theorem runs_done_iff {a b : α} : (Program.done a).Runs es b ↔ es = [] ∧ b = a := by
  constructor
  · intro h
    cases h
    exact ⟨rfl, rfl⟩
  · rintro ⟨rfl, rfl⟩
    exact .done b

theorem runs_ask_iff {r : Request} {next : r.Answer → Program α} {a : α} :
    (Program.ask r next).Runs es a ↔
      ∃ answer rest, es = ⟨r, answer⟩ :: rest ∧ (next answer).Runs rest a := by
  constructor
  · intro h
    cases h with
    | ask _ answer h => exact ⟨answer, _, rfl, h⟩
  · rintro ⟨answer, rest, rfl, h⟩
    exact .ask r answer h

/-- A way through two programs is a way through the first and then one
through the second, which starts from the first one's value. -/
theorem runs_bind_iff {f : α → Program β} {b : β} :
    (p >>= f).Runs es b ↔
      ∃ es₁ a es₂, p.Runs es₁ a ∧ (f a).Runs es₂ b ∧ es = es₁ ++ es₂ := by
  induction p generalizing es with
  | done a =>
    rw [done_bind]
    constructor
    · exact fun h => ⟨[], a, es, .done a, h, rfl⟩
    · rintro ⟨es₁, a', es₂, h₁, h₂, rfl⟩
      obtain ⟨rfl, rfl⟩ := runs_done_iff.mp h₁
      exact h₂
  | ask r next ih =>
    rw [ask_bind, runs_ask_iff]
    constructor
    · rintro ⟨answer, rest, rfl, h⟩
      obtain ⟨es₁, a, es₂, h₁, h₂, rfl⟩ := (ih answer).mp h
      exact ⟨_, a, es₂, .ask r answer h₁, h₂, rfl⟩
    · rintro ⟨es₁, a, es₂, h₁, h₂, rfl⟩
      obtain ⟨answer, rest, rfl, hrest⟩ := runs_ask_iff.mp h₁
      exact ⟨answer, rest ++ es₂, rfl, (ih answer).mpr ⟨rest, a, es₂, hrest, h₂, rfl⟩⟩

theorem runs_map_iff {f : α → β} {b : β} : (f <$> p).Runs es b ↔ ∃ a, p.Runs es a ∧ b = f a := by
  rw [map_eq_bind, runs_bind_iff]
  constructor
  · rintro ⟨es₁, a, es₂, h₁, h₂, rfl⟩
    obtain ⟨rfl, rfl⟩ := runs_done_iff.mp h₂
    exact ⟨a, by rwa [List.append_nil], rfl⟩
  · rintro ⟨a, h, rfl⟩
    exact ⟨es, a, [], h, .done _, (List.append_nil es).symm⟩

/-- A way through a program that may fail and what follows if it does not. -/
theorem runs_attempt_bind_iff {x : Attempt α} {f : α → Attempt β} {r : Except Failure β} :
    (x >>= f).run.Runs es r ↔
      (∃ es₁ a es₂, x.run.Runs es₁ (.ok a) ∧ (f a).run.Runs es₂ r ∧ es = es₁ ++ es₂) ∨
        ∃ e, x.run.Runs es (.error e) ∧ r = .error e := by
  rw [ExceptT.run_bind, runs_bind_iff]
  constructor
  · rintro ⟨es₁, first, es₂, h₁, h₂, rfl⟩
    cases first with
    | ok a => exact .inl ⟨es₁, a, es₂, h₁, h₂, rfl⟩
    | error e =>
      obtain ⟨rfl, rfl⟩ := runs_done_iff.mp h₂
      exact .inr ⟨e, by rwa [List.append_nil], rfl⟩
  · rintro (⟨es₁, a, es₂, h₁, h₂, rfl⟩ | ⟨e, h, rfl⟩)
    · exact ⟨es₁, .ok a, es₂, h₁, h₂, rfl⟩
    · exact ⟨es, .error e, [], h, .done _, (List.append_nil es).symm⟩

/-- An attempt that succeeds has gone through its first part and the rest. -/
theorem runs_attempt_bind_ok_iff {x : Attempt α} {f : α → Attempt β} {b : β} :
    (x >>= f).run.Runs es (.ok b) ↔
      ∃ es₁ a es₂, x.run.Runs es₁ (.ok a) ∧ (f a).run.Runs es₂ (.ok b) ∧ es = es₁ ++ es₂ := by
  rw [runs_attempt_bind_iff, or_iff_left]
  rintro ⟨e, _, h⟩
  cases h

theorem runs_attempt_pure_iff {a : α} {r : Except Failure α} :
    (pure a : Attempt α).run.Runs es r ↔ es = [] ∧ r = .ok a := runs_done_iff

/-- The run in a world is a way the program can go. -/
theorem runs_run (w : World φ κ) (p : Program α) (s : Scene φ κ) :
    p.Runs (p.run w s).exchanges (p.run w s).value := by
  induction p generalizing s with
  | done a => exact .done a
  | ask r next ih =>
    rw [run_ask]
    exact .ask r _ (ih _ _)

/-- What holds whatever is answered holds on every way. -/
theorem Keeps.of_runs {each : Exchange → Prop} {last : α → Prop} (h : p.Keeps each last) {a : α}
    (hruns : p.Runs es a) : (∀ e ∈ es, each e) ∧ last a := by
  induction hruns with
  | done a => exact ⟨by simp, h⟩
  | ask r answer _ ih =>
    obtain ⟨hfirst, hrest⟩ := h answer
    exact ⟨List.forall_mem_cons.mpr ⟨hfirst, (ih hrest).1⟩, (ih hrest).2⟩

end Program

end FileShell

/-
FileShell.Proofs.Program.Keeps — what holds of a program whatever it is
answered.

`Program.Keeps p each last` says that every exchange of `p` satisfies
`each` and its value satisfies `last`, however the requests are answered.
No world is named: a file system that contradicts itself and a console
that fails now and then are among the answers. `keeps_run` brings such a
statement to the run in a world.

The rules follow the way programs are put together: `keeps_bind` for one
after another, `keeps_attempt_bind` where a failure skips what follows.
-/
import FileShell.Command

namespace FileShell

namespace Program

variable {α β : Type} {each : Exchange → Prop}

/-- Whatever is answered, each exchange is such, and so is the value. -/
def Keeps : Program α → (Exchange → Prop) → (α → Prop) → Prop
  | .done a, _, last => last a
  | .ask r next, each, last => ∀ answer, each ⟨r, answer⟩ ∧ (next answer).Keeps each last

@[simp] theorem keeps_done (a : α) (last : α → Prop) :
    (Program.done a).Keeps each last ↔ last a := Iff.rfl

@[simp] theorem keeps_ask (r : Request) (next : r.Answer → Program α) (last : α → Prop) :
    (Program.ask r next).Keeps each last ↔
      ∀ answer, each ⟨r, answer⟩ ∧ (next answer).Keeps each last := Iff.rfl

theorem Keeps.imp {p : Program α} {last last' : α → Prop} (h : p.Keeps each last)
    (himp : ∀ a, last a → last' a) : p.Keeps each last' := by
  induction p with
  | done a => exact himp a h
  | ask r next ih => exact fun answer => ⟨(h answer).1, ih answer (h answer).2⟩

theorem Keeps.mono {each' : Exchange → Prop} {p : Program α} {last : α → Prop}
    (h : p.Keeps each last) (hmono : ∀ e, each e → each' e) : p.Keeps each' last := by
  induction p with
  | done a => exact h
  | ask r next ih => exact fun answer => ⟨hmono _ (h answer).1, ih answer (h answer).2⟩

/-- One program after another, the second starting from the first one's value. -/
theorem keeps_bind (p : Program α) (f : α → Program β) (last : β → Prop) :
    (p >>= f).Keeps each last ↔ p.Keeps each fun a => (f a).Keeps each last := by
  induction p with
  | done a => rfl
  | ask r next ih =>
    simp only [ask_bind, keeps_ask]
    exact forall_congr' fun answer => and_congr_right fun _ => ih answer

theorem keeps_map (p : Program α) (f : α → β) (last : β → Prop) :
    (f <$> p).Keeps each last ↔ p.Keeps each fun a => last (f a) := by
  rw [map_eq_bind, keeps_bind]
  rfl

/-- A program that may fail, and what follows if it does not. -/
theorem keeps_attempt_bind (x : Attempt α) (f : α → Attempt β)
    (last : Except Failure β → Prop) :
    (x >>= f).run.Keeps each last ↔
      x.run.Keeps each fun r =>
        match r with
        | .ok a => (f a).run.Keeps each last
        | .error e => last (.error e) := by
  rw [ExceptT.run_bind, keeps_bind]
  constructor <;>
  · refine fun h => h.imp fun r hr => ?_
    cases r <;> exact hr

/-- What holds whatever is answered holds of every run. -/
theorem keeps_run {φ κ : Type} (w : World φ κ) {p : Program α} {last : α → Prop}
    (h : p.Keeps each last) (s : Scene φ κ) :
    (∀ e ∈ (p.run w s).exchanges, each e) ∧ last (p.run w s).value := by
  induction p generalizing s with
  | done a => exact ⟨by simp, h⟩
  | ask r next ih =>
    obtain ⟨hfirst, hrest⟩ := h (w.answer r s).1
    obtain ⟨hexchanges, hlast⟩ := ih _ hrest (w.answer r s).2
    rw [run_ask]
    exact ⟨List.forall_mem_cons.mpr ⟨hfirst, hexchanges⟩, hlast⟩

end Program

end FileShell

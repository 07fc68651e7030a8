/-
FileShell.Proofs.Program.Flushing — a flush in between changes nothing.

Two states of a console are alike if they give the same answers to every
row of bytes (`Console.Alike`); a console whose flush does not change
which bytes it accepts is one whose flushed state is always like the one
before (`Console.FlushNeutral`). What may then count as the state of the
console is a `Console.View`: it says which bytes are accepted, and a flush
leaves it the same. A console has a view if and only if it is flush-neutral
(`flushNeutral_iff_exists_view`); the coarsest is what it accepts, and a
console that a flush leaves as it is may be viewed whole.

A program transforms states (`Program.Transforms`) if what it leaves, its
value, the bytes it shows and the files and the console afterwards, is a
function of the files and the console in front of it, as far as the view
goes. That is so of every program that is put together from requests other
than a flush, and from flushes whose answers are not looked at
(`compositional_transforms`, `transforms_flush`). It is so of every program
whatever where the view tells what a flush answers (`transforms_of_flush`),
in particular where the console is viewed whole.
-/
import Mathlib.Logic.Function.Basic
import FileShell.Proofs.Program.Running
import FileShell.Proofs.Shell.Composition

namespace FileShell

variable {φ κ σ α β : Type}

/-! ## Consoles -/

namespace Console

/-- What a console says to a row of bytes, each offered whatever was said
to those before it. -/
def answers (con : Console κ) : Bytes → κ → List (Except IoError Unit)
  | [], _ => []
  | b :: rest, k => (con.accept b k).1 :: con.answers rest (con.accept b k).2

/-- Two states that accept the same bytes. -/
def Alike (con : Console κ) (k k' : κ) : Prop :=
  ∀ bytes, con.answers bytes k = con.answers bytes k'

/-- A console whose flush does not change which bytes it accepts. -/
def FlushNeutral (con : Console κ) : Prop := ∀ k, con.Alike (con.flush k).2 k

/-- What may count as the state of a console: it says whether a byte is
accepted and what the state is then, and a flush leaves it the same. -/
structure View (con : Console κ) (σ : Type) where
  of : κ → σ
  accept : ∀ b k k', of k = of k' →
    (con.accept b k).1 = (con.accept b k').1 ∧ of (con.accept b k).2 = of (con.accept b k').2
  flush : ∀ k, of (con.flush k).2 = of k

variable {con : Console κ} {k k' : κ}

/-- States that are viewed as the same accept the same bytes. -/
theorem View.alike (view : con.View σ) (h : view.of k = view.of k') : con.Alike k k' := by
  intro bytes
  induction bytes generalizing k k' with
  | nil => rfl
  | cons b rest ih =>
    obtain ⟨hanswer, hnext⟩ := view.accept b k k' h
    rw [answers, answers, hanswer, ih hnext]

/-- The coarsest view of a console: which bytes it accepts. -/
def FlushNeutral.view (h : con.FlushNeutral) : con.View (Bytes → List (Except IoError Unit)) where
  of k bytes := con.answers bytes k
  accept b k k' hk := by
    have hcons (rest : Bytes) := congrFun hk (b :: rest)
    exact ⟨(List.cons.inj (hcons [])).1, funext fun rest => (List.cons.inj (hcons rest)).2⟩
  flush k := funext (h k)

theorem flushNeutral_iff_exists_view : con.FlushNeutral ↔ ∃ σ, Nonempty (con.View σ) := by
  constructor
  · exact fun h => ⟨_, ⟨h.view⟩⟩
  · rintro ⟨σ, ⟨view⟩⟩ k
    exact view.alike (view.flush k)

/-- A console that a flush leaves as it is, viewed whole. -/
def View.whole (h : ∀ k, (con.flush k).2 = k) : con.View κ where
  of k := k
  accept b k k' hk := by rw [hk]; exact ⟨rfl, rfl⟩
  flush := h

/-- A screen flushes, or fails to, without any change to it. -/
theorem flush_screen (s : Screen) : (screen.flush s).2 = s := by
  simp only [screen]
  split <;> rfl

/-- Of a print, states that are viewed as the same take the same part, and
are then viewed as the same again. -/
theorem View.write (view : con.View σ) (h : view.of k = view.of k') (bytes : Bytes) :
    (con.write bytes k).1 = (con.write bytes k').1 ∧
      con.accepted bytes k = con.accepted bytes k' ∧
        view.of (con.write bytes k).2 = view.of (con.write bytes k').2 := by
  induction bytes generalizing k k' with
  | nil => exact ⟨rfl, rfl, h⟩
  | cons b rest ih =>
    obtain ⟨hanswer, hnext⟩ := view.accept b k k' h
    rw [Console.write, Console.write, accepted, accepted]
    rcases hk : con.accept b k with ⟨a, k₁⟩
    rcases hk' : con.accept b k' with ⟨a', k₁'⟩
    rw [hk, hk'] at hanswer hnext
    obtain rfl : a = a' := hanswer
    cases a with
    | error e => exact ⟨rfl, rfl, hnext⟩
    | ok _ =>
      obtain ⟨hwrite, haccepted, hafter⟩ := ih hnext
      exact ⟨hwrite, congrArg (b :: ·) haccepted, hafter⟩

/-- The state of a scene, as far as the view of its console goes. -/
def View.state (view : con.View σ) (s : Scene φ κ) : φ × σ := (s.files, view.of s.console)

end Console

/-! ## Programs -/

namespace Program

/-- What a run leaves: the value, the bytes shown, and the state. -/
def effect (w : World φ κ) (view : w.console.View σ) (p : Program α) (s : Scene φ κ) :
    α × Bytes × (φ × σ) :=
  ((p.run w s).value, p.shown w s, view.state (p.run w s).scene)

/-- A deterministic transformer of states: what a run leaves is a function
of the state in front of it. -/
def Transforms (w : World φ κ) (view : w.console.View σ) (p : Program α) : Prop :=
  (p.effect w view).FactorsThrough view.state

variable {w : World φ κ} {view : w.console.View σ} {p : Program α}

theorem transforms_done (a : α) : (Program.done a).Transforms w view := by
  intro s s' h
  rw [effect, effect, run_done, run_done, shown_done, shown_done, h]

theorem effect_bind (p : Program α) (f : α → Program β) (s : Scene φ κ) :
    (p >>= f).effect w view s =
      let rest := (f (p.run w s).value).effect w view (p.run w s).scene
      (rest.1, p.shown w s ++ rest.2.1, rest.2.2) := by
  simp [effect]

theorem transforms_bind {f : α → Program β} (hp : p.Transforms w view)
    (hf : ∀ a, (f a).Transforms w view) : (p >>= f).Transforms w view := by
  intro s s' h
  obtain ⟨hvalue, hrest⟩ := Prod.mk.inj (hp h)
  obtain ⟨hshown, hstate⟩ := Prod.mk.inj hrest
  rw [effect_bind, effect_bind, hvalue, hshown, hf _ hstate]

theorem transforms_request {r : Request} (hr : r ≠ .flush) :
    (request r).Transforms w view := by
  rintro ⟨files, k⟩ ⟨files', k'⟩ h
  obtain ⟨hfiles, hk⟩ := Prod.mk.inj h
  obtain rfl : files = files' := hfiles
  simp only [effect, request, run_ask, run_done, shown_ask, shown_done, List.append_nil,
    Console.View.state, World.answer, World.shownBy]
  cases r with
  | flush => exact absurd rfl hr
  | print content =>
    obtain ⟨hanswer, haccepted, hafter⟩ := view.write hk content
    dsimp only
    rw [hanswer, haccepted, hafter]
  | _ =>
    dsimp only
    rw [hk]

/-- Transforming states is a matter of the parts of a program. -/
theorem compositional_transforms (w : World φ κ) (view : w.console.View σ) :
    Compositional fun p => p.Transforms w view where
  done := transforms_done
  bind := transforms_bind
  request := transforms_request

/-- A flush transforms states if its answer is not looked at. -/
theorem transforms_flush (hp : p.Transforms w view) :
    (Program.ask .flush fun _ => p).Transforms w view := by
  intro s s' h
  have hstate (s : Scene φ κ) : view.state (w.answer .flush s).2 = view.state s :=
    Prod.ext rfl (view.flush s.console)
  rw [effect, effect, run_ask, run_ask, shown_ask, shown_ask]
  exact hp ((hstate s).trans (h.trans (hstate s').symm))

/-- Where the view tells what a flush answers, every program transforms
states. -/
theorem transforms_of_flush
    (hflush : ∀ k k', view.of k = view.of k' → (w.console.flush k).1 = (w.console.flush k').1)
    (p : Program α) : p.Transforms w view := by
  induction p with
  | done a => exact transforms_done a
  | ask r next ih =>
    by_cases hr : r = .flush
    · subst hr
      intro s s' h
      have hanswer : (w.answer .flush s).1 = (w.answer .flush s').1 :=
        hflush _ _ (congrArg Prod.snd h)
      have hquiet := transforms_flush (ih (w.answer .flush s).1) h
      simpa only [effect, run_ask, shown_ask, ← hanswer] using hquiet
    · exact transforms_bind (transforms_request hr) ih

/-- In particular where the console is viewed whole. -/
theorem transforms_whole (w : World φ κ) (h : ∀ k, (w.console.flush k).2 = k) (p : Program α) :
    p.Transforms w (Console.View.whole h) :=
  transforms_of_flush (fun _ _ hk => congrArg (fun k => (w.console.flush k).1) hk) p

end Program

end FileShell

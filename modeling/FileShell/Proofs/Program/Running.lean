/-
FileShell.Proofs.Program.Running — runs of one program after another, and
what they show.

`run_bind_*` cut a run where one program hands over to the next.

`Program.shown` is what a run puts on the console: of each print the bytes
that the console took, in order. A console may take a part of a print and
refuse the rest, so this is not read off the exchanges.
-/
import FileShell.Command

namespace FileShell

variable {φ κ α β : Type}

/-- The bytes that a console takes of a print, up to the first it refuses. -/
def Console.accepted (con : Console κ) : Bytes → κ → Bytes
  | [], _ => []
  | b :: rest, k =>
    match con.accept b k with
    | (.ok (), k) => b :: con.accepted rest k
    | (.error _, _) => []

/-- The bytes that one request puts on the console. -/
def World.shownBy (w : World φ κ) : Request → Scene φ κ → Bytes
  | .print content, s => w.console.accepted content s.console
  | _, _ => []

namespace Program

/-- The bytes that a run puts on the console. -/
def shown (w : World φ κ) : Program α → Scene φ κ → Bytes
  | .done _, _ => []
  | .ask r next, s => w.shownBy r s ++ (next (w.answer r s).1).shown w (w.answer r s).2

@[simp] theorem shown_done (w : World φ κ) (a : α) (s : Scene φ κ) :
    (Program.done a).shown w s = [] := rfl

theorem shown_ask (w : World φ κ) (r : Request) (next : r.Answer → Program α) (s : Scene φ κ) :
    (Program.ask r next).shown w s =
      w.shownBy r s ++ (next (w.answer r s).1).shown w (w.answer r s).2 := rfl

theorem run_bind (w : World φ κ) (p : Program α) (f : α → Program β) (s : Scene φ κ) :
    (p >>= f).run w s =
      ⟨((f (p.run w s).value).run w (p.run w s).scene).value,
       ((f (p.run w s).value).run w (p.run w s).scene).scene,
       (p.run w s).exchanges ++ ((f (p.run w s).value).run w (p.run w s).scene).exchanges⟩ := by
  induction p generalizing s with
  | done a => rfl
  | ask r next ih =>
    rw [ask_bind, run_ask, ih, run_ask]
    rfl

@[simp] theorem run_bind_value (w : World φ κ) (p : Program α) (f : α → Program β)
    (s : Scene φ κ) :
    ((p >>= f).run w s).value = ((f (p.run w s).value).run w (p.run w s).scene).value := by
  rw [run_bind]

@[simp] theorem run_bind_scene (w : World φ κ) (p : Program α) (f : α → Program β)
    (s : Scene φ κ) :
    ((p >>= f).run w s).scene = ((f (p.run w s).value).run w (p.run w s).scene).scene := by
  rw [run_bind]

@[simp] theorem run_bind_exchanges (w : World φ κ) (p : Program α) (f : α → Program β)
    (s : Scene φ κ) :
    ((p >>= f).run w s).exchanges =
      (p.run w s).exchanges ++ ((f (p.run w s).value).run w (p.run w s).scene).exchanges := by
  rw [run_bind]

theorem run_map (w : World φ κ) (f : α → β) (p : Program α) (s : Scene φ κ) :
    (f <$> p).run w s = ⟨f (p.run w s).value, (p.run w s).scene, (p.run w s).exchanges⟩ := by
  rw [map_eq_bind, run_bind]
  simp

/-- An attempt goes on with the value of its first part. -/
theorem run_attempt_bind_value (w : World φ κ) (x : Attempt α) (f : α → Attempt β) {s : Scene φ κ}
    {a : α} (h : (x.run.run w s).value = .ok a) :
    ((x >>= f).run.run w s).value = ((f a).run.run w (x.run.run w s).scene).value := by
  rw [ExceptT.run_bind, run_bind_value, h]

@[simp] theorem shown_bind (w : World φ κ) (p : Program α) (f : α → Program β) (s : Scene φ κ) :
    (p >>= f).shown w s = p.shown w s ++ (f (p.run w s).value).shown w (p.run w s).scene := by
  induction p generalizing s with
  | done a => rfl
  | ask r next ih =>
    rw [ask_bind, shown_ask, ih, shown_ask, List.append_assoc, run_ask]

end Program

end FileShell

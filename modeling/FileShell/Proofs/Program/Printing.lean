/-
FileShell.Proofs.Program.Printing — runs on a console that never fails.

Such a console takes every print whole, so what a run shows is its prints,
read off the exchanges (`shown_eq_flatten`). That a console never fails is
said of a state of it (`Console.TakesAll`): a screen with no limit to its
room is an example, a screen in general is not. Of any console it is
enough to know that this run's prints were taken
(`shown_eq_flatten_of_taken`).
-/
import FileShell.Proofs.Program.Running

namespace FileShell

variable {φ κ α : Type}

namespace Console

variable {con : Console κ} {k : κ}

/-- From a state on, whatever is written and however often it is flushed,
a console takes every byte. -/
def TakesAll (con : Console κ) (k : κ) : Prop :=
  ∃ good : κ → Prop, good k ∧ ∀ k, good k →
    (∀ b, (con.accept b k).1 = .ok () ∧ good (con.accept b k).2) ∧ good (con.flush k).2

theorem TakesAll.accept (h : con.TakesAll k) (b : UInt8) :
    ∃ k', con.accept b k = (.ok (), k') ∧ con.TakesAll k' := by
  obtain ⟨good, hk, hgood⟩ := h
  obtain ⟨hok, hnext⟩ := (hgood k hk).1 b
  exact ⟨_, Prod.ext hok rfl, good, hnext, hgood⟩

theorem TakesAll.flush (h : con.TakesAll k) : con.TakesAll (con.flush k).2 := by
  obtain ⟨good, hk, hgood⟩ := h
  exact ⟨good, (hgood k hk).2, hgood⟩

theorem TakesAll.write (h : con.TakesAll k) (bytes : Bytes) :
    (con.write bytes k).1 = .ok () ∧ con.accepted bytes k = bytes ∧
      con.TakesAll (con.write bytes k).2 := by
  induction bytes generalizing k with
  | nil => exact ⟨rfl, rfl, h⟩
  | cons b rest ih =>
    obtain ⟨k', hb, hk'⟩ := h.accept b
    obtain ⟨hok, hall, hrest⟩ := ih hk'
    rw [Console.write, Console.accepted, hb]
    exact ⟨hok, congrArg (b :: ·) hall, hrest⟩

/-- A write that is not refused is taken whole. -/
theorem accepted_of_write (bytes : Bytes) (h : (con.write bytes k).1 = .ok ()) :
    con.accepted bytes k = bytes := by
  induction bytes generalizing k with
  | nil => rfl
  | cons b rest ih =>
    rw [Console.write] at h
    rw [Console.accepted]
    match hb : con.accept b k with
    | (.ok (), k') =>
      rw [hb] at h
      exact congrArg (b :: ·) (ih h)
    | (.error e, k') =>
      rw [hb] at h
      cases h

/-- A screen without a limit takes everything. -/
theorem takesAll_screen {s : Screen} (hroom : s.room = none) : Console.screen.TakesAll s := by
  refine ⟨fun s => s.room = none, hroom, fun s hs => ⟨fun b => ?_, ?_⟩⟩
  · simp [screen, Screen.accept, hs]
  · simp only [screen]
    split <;> exact hs

end Console

/-- What an exchange prints, if it is a print. -/
def Exchange.printed? : Exchange → Option Bytes
  | ⟨.print content, _⟩ => some content
  | _ => none

/-- Not a print that was refused. -/
def Exchange.taken : Exchange → Bool
  | ⟨.print _, .error _⟩ => false
  | _ => true

/-- What is printed in a row of exchanges, print by print. -/
def prints (exchanges : List Exchange) : List Bytes := exchanges.filterMap Exchange.printed?

theorem prints_append (es es' : List Exchange) : prints (es ++ es') = prints es ++ prints es' :=
  List.filterMap_append

namespace Program

/-- What is shown is what is printed, and the console goes on to take everything. -/
theorem shown_eq_flatten (w : World φ κ) (p : Program α) {s : Scene φ κ}
    (hcon : w.console.TakesAll s.console) :
    p.shown w s = (prints (p.run w s).exchanges).flatten ∧
      w.console.TakesAll (p.run w s).scene.console := by
  induction p generalizing s with
  | done a => exact ⟨rfl, hcon⟩
  | ask r next ih =>
    rw [shown_ask, run_ask]
    cases r with
    | print content =>
      obtain ⟨_, hall, hafter⟩ := hcon.write content
      obtain ⟨hshown, hend⟩ := ih (w.answer (.print content) s).1
        (s := (w.answer (.print content) s).2) hafter
      refine ⟨?_, hend⟩
      rw [World.shownBy, hall]
      exact congrArg (content ++ ·) hshown
    | flush => exact ih _ hcon.flush
    | _ => exact ih _ hcon

/-- A console that takes everything refuses no print. -/
theorem taken_of_takesAll (w : World φ κ) (p : Program α) {s : Scene φ κ}
    (hcon : w.console.TakesAll s.console) : ∀ e ∈ (p.run w s).exchanges, e.taken = true := by
  induction p generalizing s with
  | done a => simp
  | ask r next ih =>
    rw [run_ask, List.forall_mem_cons]
    cases r with
    | print content =>
      obtain ⟨hok, _, hafter⟩ := hcon.write content
      refine ⟨?_, ih _ (s := (w.answer (.print content) s).2) hafter⟩
      change Exchange.taken ⟨.print content, (w.console.write content s.console).1⟩ = true
      rw [hok]
      rfl
    | flush => exact ⟨rfl, ih _ hcon.flush⟩
    | _ => exact ⟨rfl, ih _ hcon⟩

/-- What is shown is what is printed, if no print was refused. -/
theorem shown_eq_flatten_of_taken (w : World φ κ) (p : Program α) {s : Scene φ κ}
    (h : ∀ e ∈ (p.run w s).exchanges, e.taken = true) :
    p.shown w s = (prints (p.run w s).exchanges).flatten := by
  induction p generalizing s with
  | done a => rfl
  | ask r next ih =>
    rw [run_ask] at h
    obtain ⟨hfirst, hrest⟩ := List.forall_mem_cons.mp h
    rw [shown_ask, run_ask, ih _ hrest]
    cases r with
    | print content =>
      have hok : (w.console.write content s.console).1 = .ok () := by
        change Exchange.taken ⟨.print content, (w.console.write content s.console).1⟩ = true
          at hfirst
        cases hanswer : (w.console.write content s.console).1 with
        | ok _ => rfl
        | error c =>
          rw [hanswer] at hfirst
          cases hfirst
      rw [World.shownBy, Console.accepted_of_write content hok]
      rfl
    | _ => rfl

end Program

end FileShell

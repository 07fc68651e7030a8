/-
FileShell.Proofs.Program.Cutting — the same program on a console that
runs full.

A console has room for some bytes if it takes that many and then no more
(`Console.HasRoom`); it may say what it likes to a flush. Next to a
console that takes everything, a run of a program on it is the same run
for as long as all that is printed fits. From the first byte that does not
fit the two may part for good, in what they ask and in what they leave;
but then the console is full, and nothing that any program does shows on a
full console (`shown_of_full`).

`Program.Steady` says this of a program: what it shows is what fits of
what it would show, and where all fits nothing else is different either
(`CutShort`). It is so of every request but a flush (`steady_request`), and
of one steady program after another (`steady_bind`).
-/
import FileShell.Proofs.Program.Printing

namespace FileShell

variable {φ κ κ' α β : Type}

/-! ## Room -/

namespace Bytes

/-- All of the bytes fit into some room; without a limit anything does. -/
def Fits (room : Option Nat) (bytes : Bytes) : Prop := ∀ n ∈ room, bytes.length ≤ n

/-- As many of the bytes as fit. -/
def cut (room : Option Nat) (bytes : Bytes) : Bytes := room.elim bytes bytes.take

/-- The room that is left behind bytes. -/
def spare (room : Option Nat) (bytes : Bytes) : Option Nat := room.map (· - bytes.length)

variable {room : Option Nat} {a : Bytes}

theorem fits_nil (room : Option Nat) : Fits room [] := fun _ _ => Nat.zero_le _

theorem spare_nil (room : Option Nat) : spare room [] = room := by
  cases room <;> simp [spare]

theorem cut_of_fits (h : Fits room a) : cut room a = a := by
  cases room with
  | none => rfl
  | some n => exact List.take_of_length_le (h n rfl)

theorem fits_append (h : Fits room a) (b : Bytes) : Fits room (a ++ b) ↔ Fits (spare room a) b := by
  cases room with
  | none => simp [Fits, spare]
  | some n =>
    have hn : a.length ≤ n := h n rfl
    simp only [Fits, spare, Option.map_some, Option.mem_some_iff, forall_eq', List.length_append]
    omega

theorem cut_append (h : Fits room a) (b : Bytes) :
    cut room (a ++ b) = a ++ cut (spare room a) b := by
  cases room with
  | none => rfl
  | some n =>
    have hn : a.length ≤ n := h n rfl
    simp [cut, spare, List.take_append, List.take_of_length_le hn]

theorem spare_append (a b : Bytes) : spare room (a ++ b) = spare (spare room a) b := by
  cases room <;> simp [spare, Nat.sub_sub]

/-- Where bytes do not fit, nothing fits behind them. -/
theorem cut_append_of_not_fits (h : ¬ Fits room a) (b : Bytes) :
    ¬ Fits room (a ++ b) ∧ cut room (a ++ b) = cut room a := by
  cases room with
  | none => simp [Fits] at h
  | some n =>
    have hn : n < a.length := by simpa [Fits] using h
    refine ⟨fun hab => ?_, ?_⟩
    · have := hab n rfl
      rw [List.length_append] at this
      omega
    · exact List.take_append_of_le_length (Nat.le_of_lt hn)

end Bytes

open Bytes

namespace Console

variable {con : Console κ} {room : Option Nat} {k : κ}

/-- From a state on, however often it is flushed, a console takes as many
bytes as it has room for and refuses every one behind them. -/
def HasRoom (con : Console κ) (room : Option Nat) (k : κ) : Prop :=
  ∃ good : Option Nat → κ → Prop, good room k ∧ ∀ room k, good room k →
    good room (con.flush k).2 ∧
      ∀ b, match room with
        | none => (con.accept b k).1 = .ok () ∧ good none (con.accept b k).2
        | some 0 => (∃ e, (con.accept b k).1 = .error e) ∧ good (some 0) (con.accept b k).2
        | some (n + 1) => (con.accept b k).1 = .ok () ∧ good (some n) (con.accept b k).2

theorem HasRoom.flush (h : con.HasRoom room k) : con.HasRoom room (con.flush k).2 := by
  obtain ⟨good, hk, hgood⟩ := h
  exact ⟨good, (hgood room k hk).1, hgood⟩

/-- A console without a limit takes everything. -/
theorem hasRoom_none_iff : con.HasRoom none k ↔ con.TakesAll k := by
  constructor
  · rintro ⟨good, hk, hgood⟩
    exact ⟨good none, hk, fun k hk => ⟨(hgood none k hk).2, (hgood none k hk).1⟩⟩
  · rintro ⟨good, hk, hgood⟩
    refine ⟨fun room k => room = none ∧ good k, ⟨rfl, hk⟩, ?_⟩
    rintro _ k ⟨rfl, hk⟩
    exact ⟨⟨rfl, (hgood k hk).2⟩, fun b => ⟨((hgood k hk).1 b).1, rfl, ((hgood k hk).1 b).2⟩⟩

/-- A byte that there is room for is taken. -/
theorem HasRoom.accept (h : con.HasRoom room k) (hroom : room ≠ some 0) (b : UInt8) :
    ∃ k', con.accept b k = (.ok (), k') ∧ con.HasRoom (spare room [b]) k' := by
  obtain ⟨good, hk, hgood⟩ := h
  have hstep := (hgood room k hk).2 b
  match room with
  | none => exact ⟨_, Prod.ext hstep.1 rfl, good, hstep.2, hgood⟩
  | some 0 => exact absurd rfl hroom
  | some (n + 1) => exact ⟨_, Prod.ext hstep.1 rfl, good, hstep.2, hgood⟩

/-- A full console refuses every byte, and stays full. -/
theorem HasRoom.refuse (h : con.HasRoom (some 0) k) (b : UInt8) :
    ∃ e k', con.accept b k = (.error e, k') ∧ con.HasRoom (some 0) k' := by
  obtain ⟨good, hk, hgood⟩ := h
  obtain ⟨⟨e, he⟩, hnext⟩ := (hgood (some 0) k hk).2 b
  exact ⟨e, _, Prod.ext he rfl, good, hnext, hgood⟩

/-- What fits of a print is taken; the print is refused if not all of it
fits, and the console is full then. -/
theorem HasRoom.write (h : con.HasRoom room k) (bytes : Bytes) :
    con.accepted bytes k = cut room bytes ∧
      (Fits room bytes → (con.write bytes k).1 = .ok () ∧
        con.HasRoom (spare room bytes) (con.write bytes k).2) ∧
      (¬ Fits room bytes → (∃ e, (con.write bytes k).1 = .error e) ∧
        con.HasRoom (some 0) (con.write bytes k).2) := by
  induction bytes generalizing room k with
  | nil =>
    refine ⟨(cut_of_fits (fits_nil room)).symm, fun _ => ⟨rfl, ?_⟩,
      fun hno => absurd (fits_nil room) hno⟩
    rw [spare_nil]
    exact h
  | cons b rest ih =>
    by_cases hroom : room = some 0
    · subst hroom
      obtain ⟨e, k', hb, hk'⟩ := h.refuse b
      rw [Console.accepted, Console.write, hb]
      exact ⟨rfl, fun hfits => absurd (hfits 0 rfl) (by simp), fun _ => ⟨⟨e, rfl⟩, hk'⟩⟩
    · obtain ⟨k', hb, hk'⟩ := h.accept hroom b
      obtain ⟨hacc, hfit, hno⟩ := ih hk'
      have hone : Fits room [b] := by
        rintro n rfl
        exact Nat.one_le_iff_ne_zero.mpr fun hn => hroom (congrArg some hn)
      have hcons : b :: rest = [b] ++ rest := rfl
      rw [Console.accepted, Console.write, hb, hcons, cut_append hone, fits_append hone,
        spare_append]
      exact ⟨congrArg (b :: ·) hacc, hfit, hno⟩

/-- A screen has the room that it says. -/
theorem hasRoom_screen (s : Screen) : Console.screen.HasRoom s.room s := by
  refine ⟨fun room s => s.room = room, rfl, ?_⟩
  rintro room s rfl
  constructor
  · simp only [screen]
    split <;> rfl
  · intro b
    simp only [screen, Screen.accept]
    rcases hroom : s.room with _ | _ | n <;> simp [hroom]

end Console

/-! ## Two consoles -/

/-- The same world with another console. -/
def World.on (w : World φ κ) (con : Console κ') : World φ κ' where
  files := w.files
  console := con
  loadHistory := w.loadHistory
  saveHistory := w.saveHistory

/-- A run on a console with some room, next to a run that shows these
bytes on a console that takes everything. -/
structure CutShort (con : Console κ') (room : Option Nat) (shown : Bytes) (full : Run φ κ α)
    (part : Run φ κ' α) : Prop where
  /-- Where all fits, they leave the same. -/
  same : Fits room shown → part.value = full.value ∧ full.scene.files = part.scene.files ∧
    con.HasRoom (spare room shown) part.scene.console
  /-- Where it does not, the console is full. -/
  frozen : ¬ Fits room shown → con.HasRoom (some 0) part.scene.console

namespace Program

/-- The program shows on every console what fits of what it shows on one
that takes everything, and where all fits it leaves the same. -/
structure Steady (p : Program α) : Prop where
  beside {φ κ κ' : Type} (w : World φ κ) (con : Console κ') (room : Option Nat) {s : Scene φ κ}
    {s' : Scene φ κ'} (hfiles : s.files = s'.files) (hcon : w.console.TakesAll s.console)
    (hroom : con.HasRoom room s'.console) :
    p.shown (w.on con) s' = cut room (p.shown w s) ∧
      CutShort con room (p.shown w s) (p.run w s) (p.run (w.on con) s')

/-- Nothing shows on a full console, and it stays full. -/
theorem shown_of_full (w : World φ κ) (p : Program α) {s : Scene φ κ}
    (h : w.console.HasRoom (some 0) s.console) :
    p.shown w s = [] ∧ w.console.HasRoom (some 0) (p.run w s).scene.console := by
  induction p generalizing s with
  | done a => exact ⟨rfl, h⟩
  | ask r next ih =>
    rw [shown_ask, run_ask]
    cases r with
    | print content =>
      obtain ⟨hacc, hfit, hno⟩ := h.write content
      have hstill : w.console.HasRoom (some 0) (w.console.write content s.console).2 := by
        by_cases hfits : Fits (some 0) content
        · simpa [spare] using (hfit hfits).2
        · exact (hno hfits).2
      obtain ⟨hshown, hend⟩ := ih (w.answer (.print content) s).1
        (s := (w.answer (.print content) s).2) hstill
      rw [World.shownBy, hacc, hshown]
      exact ⟨rfl, hend⟩
    | flush => exact ih _ h.flush
    | _ => exact ih _ h

theorem steady_done (a : α) : (Program.done a).Steady := by
  constructor
  intro φ κ κ' w con room s s' hfiles _ hroom
  refine ⟨(cut_of_fits (fits_nil room)).symm, fun _ => ⟨rfl, hfiles, ?_⟩,
    fun hno => absurd (fits_nil room) hno⟩
  rw [shown_done, spare_nil]
  exact hroom

/-- A request that leaves the console alone, and is answered alike. -/
theorem steady_of_answer {w : World φ κ} {con : Console κ'} {room : Option Nat} {s : Scene φ κ}
    {s' : Scene φ κ'} {r : Request} (hshown : w.shownBy r s = [] ∧ (w.on con).shownBy r s' = [])
    (hanswer : ((w.on con).answer r s').1 = (w.answer r s).1)
    (hfiles : (w.answer r s).2.files = ((w.on con).answer r s').2.files)
    (hroom : con.HasRoom room ((w.on con).answer r s').2.console) :
    (request r).shown (w.on con) s' = cut room ((request r).shown w s) ∧
      CutShort con room ((request r).shown w s) ((request r).run w s)
        ((request r).run (w.on con) s') := by
  have hnone : (request r).shown w s = [] := by rw [request, shown_ask, hshown.1, shown_done]; rfl
  rw [hnone, cut_of_fits (fits_nil room), request, shown_ask, hshown.2]
  refine ⟨rfl, fun _ => ⟨hanswer, hfiles, ?_⟩, fun hno => absurd (fits_nil room) hno⟩
  rw [spare_nil]
  exact hroom

theorem steady_request {r : Request} (hr : r ≠ .flush) : (request r).Steady := by
  constructor
  intro φ κ κ' w con room s s' hfiles hcon hroom
  obtain ⟨files, k⟩ := s
  obtain ⟨files', k'⟩ := s'
  obtain rfl : files = files' := hfiles
  cases r with
  | flush => exact absurd rfl hr
  | print content =>
    obtain ⟨hok, hall, _⟩ := hcon.write content
    obtain ⟨hacc, hfit, hno⟩ := hroom.write content
    have hshown : (request (.print content)).shown w ⟨files, k⟩ = content := by
      rw [request, shown_ask, shown_done, List.append_nil, World.shownBy, hall]
    rw [hshown, request, shown_ask, shown_done, List.append_nil, World.shownBy]
    refine ⟨hacc, fun hfits => ⟨?_, rfl, (hfit hfits).2⟩, fun hfits => (hno hfits).2⟩
    exact (hfit hfits).1.trans hok.symm
  | _ => exact steady_of_answer ⟨rfl, rfl⟩ rfl rfl hroom

theorem steady_bind {p : Program α} {f : α → Program β} (hp : p.Steady)
    (hf : ∀ a, (f a).Steady) : (p >>= f).Steady := by
  constructor
  intro φ κ κ' w con room s s' hfiles hcon hroom
  obtain ⟨hshown, hsame, hfrozen⟩ := hp.beside w con room hfiles hcon hroom
  have hcon' : w.console.TakesAll (p.run w s).scene.console := (shown_eq_flatten w p hcon).2
  rw [shown_bind, shown_bind, hshown, run_bind, run_bind]
  by_cases hfits : Fits room (p.shown w s)
  · -- So far both are the same, and the second program goes on in the room that is left.
    obtain ⟨hvalue, hfiles', hroom'⟩ := hsame hfits
    obtain ⟨hshown', hsame', hfrozen'⟩ :=
      (hf (p.run w s).value).beside w con _ hfiles' hcon' hroom'
    rw [hvalue, cut_of_fits hfits, cut_append hfits, hshown']
    refine ⟨rfl, fun h => ?_, fun h => hfrozen' (h ∘ (fits_append hfits _).mpr)⟩
    rw [spare_append]
    exact hsame' ((fits_append hfits _).mp h)
  · -- The console is full, so it does not matter what is done on it.
    obtain ⟨hno, hcut⟩ := cut_append_of_not_fits hfits ((f (p.run w s).value).shown w _)
    obtain ⟨hnothing, hfull⟩ := shown_of_full (w.on con) (f (p.run (w.on con) s').value)
      (hfrozen hfits)
    rw [hnothing, hcut, List.append_nil]
    exact ⟨rfl, fun h => absurd h hno, fun _ => hfull⟩

end Program

end FileShell

/-
FileShell.Proofs.Repl.Remembering — the history file over any number of
sessions.

Sessions are held one after another with one history file (`Sittings`),
each on its own input and in its own directory. They keep one invariant,
`kept`: the file is what all lines entered so far are written as, or still
missing if there were none. One session carries the invariant on
(`GoesWell.loadHistory_scene`), since reading the file gives back just the
history that was written, and since a history that has nothing new to
write holds what is in the file already.

What is asked of the world is that it keeps files (`World.KeepsHistory`).
A machine does (`Host.keepsHistory_world`).
-/
import FileShell.Proofs.History.Saving
import FileShell.Proofs.Host.Writing
import FileShell.Proofs.Repl.Listening
import FileShell.Proofs.Text.Trimming

namespace FileShell

variable {φ κ : Type}

/-! ## Worlds that keep files -/

/-- What is saved at a path is read back from it, unless the path read as
empty, as it may where nothing is kept. -/
def World.KeepsHistory (w : World φ κ) (path : Path) : Prop :=
  ∀ files content, w.loadHistory path files ≠ .ok [] →
    (w.saveHistory path content files).1 = .ok () →
      w.loadHistory path (w.saveHistory path content files).2 = .ok content

theorem Host.keepsHistory_world (files : FileSystem Host) (con : Console κ) (path : Path) :
    (Host.world files con).KeepsHistory path := by
  intro h content hread hsaved
  have hwrite : h.write path .overwrite content =
      (.ok (), ((Host.world files con).saveHistory path content h).2) := by
    simp only [Host.world, Host.saveHistory] at hsaved ⊢
    split at hsaved
    · cases hsaved
    · next heq => rw [heq]
  exact Host.readAll_write hwrite hread

/-- Whether an exchange is an attempt to save the history that failed. -/
def Exchange.failsToSave : Exchange → Bool
  | ⟨.saveHistory _ _, .error _⟩ => true
  | _ => false

namespace Repl

open Program Shell History

/-! ## What is entered -/

/-- The lines that are entered in a session: trimmed, not blank, and with the
one that told it to end. -/
def entered (input : Bytes) : List Text := (remembered (deliveries input)).filter (· ≠ [])

theorem exists_trim_of_mem_remembered {ds : List (Option Text)} {line : Text}
    (h : line ∈ remembered ds) : ∃ t : Text, line = t.trim := by
  rw [remembered, List.mem_append] at h
  rcases h with hheard | hstop
  · obtain ⟨t, _, rfl⟩ := List.mem_map.mp hheard
    exact ⟨t, rfl⟩
  · split at hstop
    · next t _ => exact ⟨t, List.mem_singleton.mp hstop⟩
    · cases hstop

/-- A line that is entered can be written to the file and read back. -/
theorem isWritable_of_mem_entered {input : Bytes} : ∀ line ∈ entered input, IsWritable line := by
  intro line hline
  rw [entered, List.mem_filter] at hline
  obtain ⟨t, rfl⟩ := exists_trim_of_mem_remembered hline.1
  refine ⟨by simpa using hline.2, fun hlast => ?_⟩
  have hblank := (Text.isTrimmed_trim t).last _ hlast
  exact absurd hblank (by decide)

/-! ## One session -/

/-- What reading the file finds after some lines were entered, if it was
missing at first. -/
def kept (missing : IoError) (lines : List Text) : Except IoError Bytes :=
  if lines = [] then .error missing else .ok (content ⟨newest (collapsed lines), 0⟩)

/-- A session with a history file goes well: it ends well, its commands
leave alone what is read from the file, and saving does not fail. -/
structure GoesWell (w : World φ κ) (table : CommandTable) (path : Path) (input : Bytes) (dir : Path)
    (s : Scene φ κ) : Prop where
  ended : ((run table (some path) input dir).run w s).value.1 = .ok ()
  untouched : w.loadHistory path
    ((executeAll table (commands (deliveries input)) dir).run w s).scene.files =
      w.loadHistory path s.files
  saved : ∀ x ∈ ((run table (some path) input dir).run w s).exchanges, x.failsToSave = false

section

variable {w : World φ κ} {path : Path} {missing : IoError} {lines : List Text} {s : Scene φ κ}

/-- What is kept depends on what the history holds. -/
theorem kept_eq (missing : IoError) (lines : List Text) :
    kept missing lines =
      if newest (collapsed lines) = [] then .error missing
      else .ok (content ⟨newest (collapsed lines), 0⟩) := by
  simp only [kept, newest_eq_nil_iff, collapsed_eq_nil_iff]

theorem kept_ne_empty : kept missing lines ≠ .ok [] := by
  rw [kept]
  split
  · exact nofun
  · exact fun he => content_ne_nil _ (Except.ok.inj he)

/-- Reading what was kept gives the history of the lines that were entered. -/
theorem run_loadHistory_kept (hlines : ∀ e ∈ lines, IsWritable e)
    (hkept : w.loadHistory path s.files = kept missing lines) :
    ((loadHistory (some path)).run w s).value = ⟨newest (collapsed lines), 0⟩ := by
  simp only [loadHistory, Program.request, Program.note, ask_bind, done_bind, run_ask, World.answer,
    hkept, kept]
  by_cases hnone : lines = []
  · rw [if_pos hnone, hnone]
    rfl
  · rw [if_neg hnone]
    simp only [load_content hlines]
    rfl

/-- A history with nothing new is not saved. -/
theorem run_saveHistory_clean {h : History} (hclean : h.isDirty = false) :
    ((saveHistory (some path) h).run w s).scene = s := by
  rw [saveHistory]
  simp [hclean]

/-- A history with something new is saved, unless an attempt to save is among
the exchanges that failed. -/
theorem run_saveHistory_dirty (w : World φ κ) (path : Path) (s : Scene φ κ) {h : History}
    (hdirty : h.isDirty = true) :
    let last := (saveHistory (some path) h).run w s
    last.scene.files = (w.saveHistory path h.content s.files).2 ∧
      ((∀ x ∈ last.exchanges, x.failsToSave = false) →
        (w.saveHistory path h.content s.files).1 = .ok ()) := by
  intro last
  have hlast : last = (saveHistory (some path) h).run w s := rfl
  rw [saveHistory] at hlast
  simp only [hdirty, if_true, Program.request, Program.note, ask_bind, done_bind, run_ask,
    World.answer] at hlast
  cases hanswer : (w.saveHistory path h.content s.files).1 with
  | ok u =>
    simp only [hlast, hanswer]
    exact ⟨rfl, fun _ => trivial⟩
  | error e =>
    simp only [hlast, hanswer]
    refine ⟨rfl, fun hall => ?_⟩
    cases hall _ List.mem_cons_self

/-- Saving a history that started as what was kept and took in more lines
keeps all of them. -/
theorem loadHistory_saveHistory (hw : w.KeepsHistory path)
    (hkept : w.loadHistory path s.files = kept missing lines) (new : List Text) :
    let last := (saveHistory (some path) (new.foldl add ⟨newest (collapsed lines), 0⟩)).run w s
    (∀ x ∈ last.exchanges, x.failsToSave = false) →
      w.loadHistory path last.scene.files = kept missing (lines ++ new.filter (· ≠ [])) := by
  intro last hsaved
  have hentries := entries_foldl_add (h := ⟨newest (collapsed lines), 0⟩) rfl new
  rw [kept_eq, ← hentries]
  rcases foldl_add_eq_or_isDirty ⟨newest (collapsed lines), 0⟩ new with hsame | hdirty
  · -- Nothing came in that counts, so the file holds it already.
    rw [run_saveHistory_clean (by rw [hsame]; simp [isDirty]), hkept, kept_eq, hsame]
  · obtain ⟨hfiles, hok⟩ := run_saveHistory_dirty w path s hdirty
    have hne : (new.foldl add ⟨newest (collapsed lines), 0⟩).entries ≠ [] := by
      rw [isDirty, Bool.and_eq_true] at hdirty
      simpa using hdirty.1
    rw [hfiles, hw _ _ (hkept ▸ kept_ne_empty) (hok hsaved), if_neg hne]
    rfl

/-- A session that goes well leaves in the file what was entered before and
what is entered in it. -/
theorem GoesWell.loadHistory_scene {table : CommandTable} {input : Bytes} {dir : Path}
    (hgood : GoesWell w table path input dir s) (hw : w.KeepsHistory path)
    (hlines : ∀ e ∈ lines, IsWritable e)
    (hkept : w.loadHistory path s.files = kept missing lines) :
    w.loadHistory path ((run table (some path) input dir).run w s).scene.files =
      kept missing (lines ++ entered input) := by
  obtain ⟨hended, huntouched, hsaved⟩ := hgood
  have hload := run_loadHistory_kept hlines hkept
  have hscene := (run_loadHistory w s (some path)).1
  simp only [run_eq, run_bind_value, run_bind_scene, run_bind_exchanges, hload, hscene, run_done]
    at hended hsaved ⊢
  rw [hended] at hsaved ⊢
  -- The last words go to the console, so the file is saved as the commands left it.
  generalize hlast : ((ending (stop (deliveries input))).run w _).scene = last at hsaved ⊢
  have hkept' : w.loadHistory path last.files = kept missing lines := by
    rw [← hlast, (run_ending w _ _).1, huntouched, hkept]
  exact loadHistory_saveHistory hw hkept' _ fun x hx =>
    hsaved x (List.mem_append_right _ (List.mem_append_right _ (List.mem_append_right _
      (List.mem_append_left _ hx))))

end

/-! ## One session after another -/

/-- Sessions with one history file, one after another: the lines that are
entered in all of them, from a scene to another. Between two of them, all
may change but what is read from the file. -/
inductive Sittings (w : World φ κ) (path : Path) : List Text → Scene φ κ → Scene φ κ → Prop where
  | none (s : Scene φ κ) : Sittings w path [] s s
  | next {lines : List Text} {s₀ s₁ s : Scene φ κ} {table : CommandTable} {input : Bytes}
      {dir : Path} (earlier : Sittings w path lines s₀ s₁)
      (hbetween : w.loadHistory path s.files = w.loadHistory path s₁.files)
      (hgood : GoesWell w table path input dir s) :
      Sittings w path (lines ++ entered input) s₀ ((run table (some path) input dir).run w s).scene

section

variable {w : World φ κ} {path : Path} {missing : IoError} {lines : List Text} {s s' : Scene φ κ}

theorem Sittings.isWritable (h : Sittings w path lines s s') :
    ∀ line ∈ lines, IsWritable line := by
  induction h with
  | none => simp
  | next _ _ _ ih =>
    intro line hline
    exact (List.mem_append.mp hline).elim (ih line) (isWritable_of_mem_entered line)

/-- Sessions that go well keep all the lines that are entered in them. -/
theorem Sittings.loadHistory_scene (h : Sittings w path lines s s') (hw : w.KeepsHistory path)
    (hmissing : w.loadHistory path s.files = .error missing) :
    w.loadHistory path s'.files = kept missing lines := by
  induction h with
  | none => exact hmissing
  | next earlier hbetween hgood ih =>
    exact hgood.loadHistory_scene hw earlier.isWritable (hbetween.trans (ih hmissing))

/-- A history survives from session to session. Whatever the sessions that
are held with one history file, missing at first, as long as each of them
ends well, its commands leave the file alone and saving does not fail: if
nothing was ever entered, the file is still missing, and else it holds, as
it is written and as it is read, the newest of all the lines entered in all
of the sessions, as many as a history holds, with runs of one line
collapsed, also where one session ends and another begins. -/
theorem history_after_sittings (hw : w.KeepsHistory path)
    (hmissing : w.loadHistory path s.files = .error missing) (h : Sittings w path lines s s') :
    (lines = [] → w.loadHistory path s'.files = .error missing) ∧
      (lines ≠ [] → ∃ file, w.loadHistory path s'.files = .ok file ∧
        file = content ⟨newest (collapsed lines), 0⟩ ∧
        empty.load file = (⟨newest (collapsed lines), 0⟩, none)) := by
  have hkept := h.loadHistory_scene hw hmissing
  refine ⟨fun hnone => ?_, fun hne => ?_⟩
  · rw [hkept, kept, if_pos hnone]
  · refine ⟨_, ?_, rfl, load_content h.isWritable⟩
    rw [hkept, kept, if_neg hne]

end

/-- A line that is entered twice in a row, and the word that ends one session
and all of the next, are in the file once each. -/
theorem history_after_two_sittings :
    let w := Host.world Host.fileSystem Console.screen
    let path : Path := ⟨"/h".toList⟩
    let first := run Builtin.table (some path) (Utf8.encode "pwd\npwd\nexit\n".toList) Path.root
    let second := run Builtin.table (some path) (Utf8.encode "exit".toList) Path.root
    let s : Scene Host Console.Screen := ⟨⟨.directory 0 [], .inTree []⟩, {}⟩
    w.loadHistory path (second.run w (first.run w s).scene).scene.files =
      .ok (Utf8.encode "#V2\npwd\nexit\n".toList) := by
  intro w path first second s
  have hfirst : GoesWell w Builtin.table path (Utf8.encode "pwd\npwd\nexit\n".toList) Path.root s :=
    ⟨by decide +kernel, by decide +kernel, by decide +kernel⟩
  have hsecond : GoesWell w Builtin.table path (Utf8.encode "exit".toList) Path.root
      (first.run w s).scene :=
    ⟨by decide +kernel, by decide +kernel, by decide +kernel⟩
  have hsittings := ((Sittings.none s).next rfl hfirst).next rfl hsecond
  obtain ⟨_, hkept⟩ := history_after_sittings (Host.keepsHistory_world _ _ path) rfl hsittings
  obtain ⟨file, hread, hfile, _⟩ := hkept (by decide +kernel)
  rw [hread, hfile]
  decide +kernel

end Repl

end FileShell

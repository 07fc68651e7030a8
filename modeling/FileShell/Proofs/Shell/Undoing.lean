/-
FileShell.Proofs.Shell.Undoing — `mkdir` is undone by `rmdir`, and `touch`
by `rm`.

The argument is resolved alike each time, and what it resolves to has no
slash at its end, so a new entry is `Made` at the place that the path names,
whatever links its parent runs through. From there:

* every question about the path is answered by the new entry, because the
  path leads to it (`perform_rmdir`, `perform_rm`);
* the name is no longer free, so it cannot be made once more
  (`perform_touch_again`);
* removing it gives back the machine (`Made.removeDirectory`,
  `Made.removeFile`).
-/
import FileShell.Proofs.Host.Making
import FileShell.Proofs.Shell.OnHost

namespace FileShell

open Program Builtin Host

variable {κ : Type} {con : Console κ} {s : Scene Host κ} {dir : Path} {arg : Text}

namespace Builtin

/-! ## Making -/

/-- A directory that `mkdir` says it has made is made. -/
theorem made_of_perform_mkdir {q : Success}
    (hok : (((mkdir arg).perform dir).run.run (world fileSystem con) s).value = .ok q) :
    ∃ h' directory n v, s.files.root.volumeAt directory = some v ∧
      Made s.files h' (dir.resolve arg) directory n (.directory v []) ∧
      (((mkdir arg).perform dir).run.run (world fileSystem con) s).scene.files = h' := by
  rw [perform, run_runMkdir, run_ask, answer_files, answer] at hok ⊢
  rcases hmake : s.files.createDirectory (dir.resolve arg) with ⟨r, h'⟩
  rw [hmake] at hok
  cases r with
  | error e => cases hok
  | ok u =>
    obtain ⟨directory, n, v, hv, hmade⟩ :=
      made_of_createDirectory (getLast?_steps_normal _) hmake
    exact ⟨h', directory, n, v, hv, hmade, rfl⟩

/-- A file that `touch` says it has made is made. -/
theorem made_of_perform_touch {q : Success}
    (hok : (((touch arg).perform dir).run.run (world fileSystem con) s).value = .ok q) :
    ∃ h' directory n, Made s.files h' (dir.resolve arg) directory n (.file []) ∧
      (((touch arg).perform dir).run.run (world fileSystem con) s).scene.files = h' := by
  rw [perform, run_runTouch, run_ask, answer_files, answer] at hok ⊢
  rcases hmake : s.files.createFile (dir.resolve arg) with ⟨r, h'⟩
  rw [hmake] at hok
  cases r with
  | error e => cases hok
  | ok u =>
    obtain ⟨directory, n, hmade⟩ := made_of_createFile (getLast?_steps_normal _) hmake
    exact ⟨h', directory, n, hmade, rfl⟩

/-! ## After it is made -/

section

variable {h : Host} {directory : Place} {n : Text}

/-- A new directory is removed. -/
theorem perform_rmdir (hcon : con.TakesAll s.console) {v : Nat}
    (hm : Made h s.files (dir.resolve arg) directory n (.directory v []))
    (hv : h.root.volumeAt directory = some v) :
    let own := ((rmdir arg).perform dir).run.run (world fileSystem con) s
    own.value = .ok (.quiet dir) ∧
      own.scene.files = { h with process := h.process.without (directory ++ [n]) } := by
  have hentries : s.files.entries (dir.resolve arg) = .ok [] := by
    rw [Host.entries, Host.openForRead_all, hm.locate' (by simp)]
    rfl
  simp only [perform, run_runRmdir, run_ask, answer_files, answer, hm.exists? (by simp),
    hm.isDirectory (by simp), Node.isDirectory, hentries, hm.removeDirectory hv, if_true]
  exact ⟨run_announce hcon, rfl⟩

/-- A new file is removed. -/
theorem perform_rm (hcon : con.TakesAll s.console)
    (hm : Made h s.files (dir.resolve arg) directory n (.file [])) :
    let own := ((rm arg).perform dir).run.run (world fileSystem con) s
    own.value = .ok (.quiet dir) ∧ own.scene.files = h := by
  simp only [perform, run_runRm, run_ask, answer_files, answer, hm.exists? (by simp),
    hm.isDirectory (by simp), Node.isDirectory, hm.removeFile, if_true, Bool.false_eq_true,
    if_false]
  exact ⟨run_announce hcon, rfl⟩

/-- What has been made is not made once more. -/
theorem perform_touch_again {node : Node}
    (hm : Made h s.files (dir.resolve arg) directory n node) :
    let own := ((touch arg).perform dir).run.run (world fileSystem con) s
    own.value = .error (.fileExists arg) ∧ own.scene = s := by
  simp only [perform, run_runTouch, run_ask, answer_files, answer, hm.createFile]
  exact ⟨rfl, rfl⟩

end

end Builtin

namespace Shell

/-! ## Making and taking away -/

/-- On any machine, from any directory and for any argument: where `mkdir`
succeeds, `rmdir` succeeds next and gives back the tree, and the machine
unless its process stood where nothing was; where `touch` succeeds, the
path names an empty file, which it leads to, a second `touch` is refused
and leaves everything as it is, and `rm` succeeds and gives back the
machine. Surplus arguments and redirections, which these commands ignore,
may differ from one command to the next. -/
theorem making_is_undone (hcon : con.TakesAll s.console) (dir : Path) (arg : Text)
    (surplus : Builtin.Name → List Text) (redirect : Builtin.Name → Option Redirect) :
    let p := dir.resolve arg
    let invoke (n : Builtin.Name) := onHost con dir n (arg :: surplus n) (redirect n)
    ((invoke .mkdir s).value.1.isOk = true →
      let undone := invoke .rmdir (invoke .mkdir s).scene
      undone.value = (.ok 0, dir) ∧ undone.scene.files.root = s.files.root ∧
        (s.files.root.StandsAt s.files.process → undone.scene.files = s.files)) ∧
    ((invoke .touch s).value.1.isOk = true →
      let made := (invoke .touch s).scene
      (∃ place, made.files.Names p place ∧ made.files.Reaches p place ∧
        made.files.root.face? place = some (.file [])) ∧
      (invoke .touch made).value = (.error (.fileExists arg), dir) ∧
      (invoke .touch made).scene = made ∧
      (invoke .rm made).value = (.ok 0, dir) ∧ (invoke .rm made).scene.files = s.files) := by
  intro p invoke
  have htakes (n : Builtin.Name) : con.TakesAll (invoke n s).scene.console :=
    (shown_eq_flatten _ _ hcon).2
  constructor
  · intro hok undone
    obtain ⟨hvalue, hscene⟩ := onHost_status con (n := .mkdir) rfl
      (arg :: surplus .mkdir) rfl (redirect .mkdir) dir s
    rw [hvalue] at hok
    obtain ⟨q, hq⟩ := exists_of_outcome hok
    obtain ⟨h', directory, m, v, hv, hmade, hfiles⟩ := made_of_perform_mkdir hq
    rw [← hfiles, ← hscene] at hmade
    obtain ⟨hback, hrest⟩ := perform_rmdir (htakes .mkdir) hmade hv
    obtain ⟨hvalue', hscene'⟩ := onHost_status con (n := .rmdir) rfl
      (arg :: surplus .rmdir) rfl (redirect .rmdir) dir (invoke .mkdir s).scene
    have hafter : undone.scene.files = _ := (congrArg Scene.files hscene').trans hrest
    refine ⟨hvalue'.trans (by rw [hback]; rfl), (congrArg Host.root hafter :), fun hstands => ?_⟩
    rw [hafter, hmade.without hstands]
  · intro hok made
    obtain ⟨hvalue, hscene⟩ := onHost_status con (n := .touch) rfl
      (arg :: surplus .touch) rfl (redirect .touch) dir s
    rw [hvalue] at hok
    obtain ⟨q, hq⟩ := exists_of_outcome hok
    obtain ⟨h', directory, m, hmade, hfiles⟩ := made_of_perform_touch hq
    rw [← hfiles, ← hscene] at hmade
    obtain ⟨hvalueAgain, hsceneAgain⟩ := onHost_status con (n := .touch) rfl
      (arg :: surplus .touch) rfl (redirect .touch) dir made
    obtain ⟨hrefused, hsame⟩ := perform_touch_again hmade
    obtain ⟨hvalueRm, hsceneRm⟩ := onHost_status con (n := .rm) rfl
      (arg :: surplus .rm) rfl (redirect .rm) dir made
    obtain ⟨hback, hrest⟩ := perform_rm (htakes .touch) hmade
    exact ⟨⟨_, hmade.names', hmade.reaches nofun, Node.face?_of_find? hmade.find?⟩,
      hvalueAgain.trans (by rw [hrefused]; rfl), hsceneAgain.trans hsame,
      hvalueRm.trans (by rw [hback]; rfl), (congrArg Scene.files hsceneRm).trans hrest⟩

/-- A directory and a file below a link to another volume, made and taken
away again. -/
theorem making_is_undone_below_link :
    let s : Scene Host Console.Screen :=
      ⟨⟨.directory 0 [(['d'], .directory 1 []), (['l'], .link ⟨['/', 'd']⟩)], .inTree []⟩, {}⟩
    let invoke (n : Builtin.Name) := onHost Console.screen Path.root n ["l/x/../n".toList] none
    (invoke .mkdir s).scene.files.root =
        .directory 0 [(['d'], .directory 1 [(['n'], .directory 1 [])]),
          (['l'], .link ⟨['/', 'd']⟩)] ∧
      (invoke .rmdir (invoke .mkdir s).scene).scene.files = s.files ∧
      (invoke .rm (invoke .touch s).scene).scene.files = s.files := by
  intro s invoke
  obtain ⟨hmkdir, htouch⟩ := making_is_undone (s := s)
    (Console.takesAll_screen (s := s.console) rfl) Path.root "l/x/../n".toList (fun _ => [])
    (fun _ => none)
  obtain ⟨-, -, hundone⟩ := hmkdir (by decide +kernel)
  obtain ⟨-, -, -, -, hremoved⟩ := htouch (by decide +kernel)
  have hback := hundone ⟨0, rfl⟩
  -- both sides are brought to one form, so that nothing is run to compare them
  dsimp only [invoke] at hback hremoved ⊢
  exact ⟨rfl, hback, hremoved⟩

end Shell

end FileShell

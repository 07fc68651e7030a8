/-
FileShell.Proofs.CommandLine.Starting — the directory that is checked, and
the one a session starts in.

A directory given on the command line is made absolute and must be one; the
check walks it as it is written. The session then starts in the path that
is left when `..` is folded away, and nothing asks again whether that path
leads to a directory, or to the same one.

`plan_directory` says when a plan starts somewhere, and where: the path
that was given leads to a directory (also as it was given, unless it is too
long for the system), the session's directory is that path folded, and it
leads to the same directory if every `..` of it leads back
(`Host.StepsBack`). `plan_misses_directory` is a start where one does not:
the session's directory is not there.
-/
import FileShell.CommandLine
import FileShell.Host.FileSystem
import FileShell.Proofs.Host.Folding
import FileShell.Proofs.Program.Running

namespace FileShell

namespace Host

/-- The process stands in a directory of the tree, and every name on the
way to it is an ordinary one; or the directory has been removed. -/
def ProcessStands (h : Host) : Prop :=
  ∀ place, h.process = .inTree place →
    h.root.StandsAt (.inTree place) ∧ ∀ n ∈ place, Path.IsOrdinary n

theorem isDirectory_iff {h : Host} {p : Path} :
    h.isDirectory p = true ↔
      ∃ spot node, h.locate p = .ok (spot, node) ∧ node.isDirectory = true := by
  rw [isDirectory]
  cases h.locate p with
  | error e => simp
  | ok found =>
    obtain ⟨spot, node⟩ := found
    constructor
    · exact fun hd => ⟨spot, node, rfl, hd⟩
    · rintro ⟨_, _, ⟨⟩, hd⟩
      exact hd

end Host

namespace CommandLine

/-- The directory that a plan starts in, unless it ends at once. -/
def Plan.directory? : Plan → Option Path
  | .stop _ _ => none
  | .runLine _ directory => some directory
  | .session _ directory => some directory

/-! ## What is checked -/

/-- A directory that could be made absolute has some text, and is taken
from the root or from the process directory. -/
theorem absoluteDirectory_eq_ok {h : Host} {v checked : Path}
    (ha : absoluteDirectory h.currentDirectory v = .ok checked) :
    v.text ≠ [] ∧ ∃ process : Path, process.isAbsolute = true ∧
      checked = Path.absolute process v ∧
      (v.isAbsolute = false → h.currentDirectory = .ok process) := by
  rw [absoluteDirectory] at ha
  split at ha
  · cases ha
  · next htext =>
    refine ⟨htext, ?_⟩
    split at ha
    · next habsolute =>
      exact ⟨Path.root, rfl, (Except.ok.inj ha).symm, fun hrelative => by simp_all⟩
    · cases hprocess : h.currentDirectory with
      | error e => rw [hprocess] at ha; cases ha
      | ok process =>
        rw [hprocess] at ha
        refine ⟨process, ?_, (Except.ok.inj ha).symm, fun _ => rfl⟩
        rw [Host.currentDirectory] at hprocess
        split at hprocess
        · exact (Except.ok.inj hprocess) ▸ rfl
        · cases hprocess

/-- A path made absolute is folded as it is. -/
theorem startIn_absolute {process v : Path} (hprocess : process.isAbsolute = true)
    {other : Option Path} :
    Path.startIn other (Path.absolute process v) = (Path.absolute process v).normal := by
  simp only [Path.startIn, if_pos (Path.components_absolute hprocess v).1]

/-- The path of the process directory spells the place where it stands. -/
theorem process_of_currentDirectory {h : Host} {process : Path} (hprocess : h.ProcessStands)
    (hcurrent : h.currentDirectory = .ok process) :
    ∃ place, h.process = .inTree place ∧ h.root.StandsAt (.inTree place) ∧
      (∀ n ∈ place, Path.IsOrdinary n) ∧
      process = Path.ofComponents (.root :: place.map .name) := by
  rw [Host.currentDirectory] at hcurrent
  split at hcurrent
  · next place hplace =>
    obtain ⟨hstands, hnames⟩ := hprocess place hplace
    refine ⟨place, hplace, hstands, hnames, (Except.ok.inj hcurrent).symm.trans ?_⟩
    rw [← Path.text_ofComponents]
  · cases hcurrent

section

variable {κ : Type} {console : Console κ} {s : Scene Host κ} {args : List Text} {o : Options}
  {v : Text} {directory : Path}

/-- A plan starts somewhere if there is a directory to start in, and there. -/
theorem directory?_plan_iff {φ : Type} {w : World φ κ} {s : Scene φ κ}
    {process : Except IoError Path} (hargs : Options.parse args = .ok o) :
    ((plan process args).run w s).value.directory? = some directory ↔
      ((startDirectory process o.directory).run w s).value = .ok directory := by
  rw [plan, hargs]
  simp only [Program.run_bind_value]
  cases ((startDirectory process o.directory).run w s).value with
  | error chain => exact iff_of_false nofun nofun
  | ok found =>
    cases o.command <;> simp [Plan.directory?]

/-- A directory that was given is one to start in if it can be made absolute
and the file system answers that it is one; and then it is folded. -/
theorem startDirectory_given_iff {process : Except IoError Path} :
    ((startDirectory process (some v)).run (Host.world Host.fileSystem console) s).value =
        .ok directory ↔
      ∃ checked, absoluteDirectory process ⟨v⟩ = .ok checked ∧
        s.files.isDirectory checked = true ∧
        directory = Path.startIn process.toOption checked := by
  rw [startDirectory]
  cases absoluteDirectory process ⟨v⟩ with
  | error e => exact iff_of_false nofun (by simp)
  | ok checked =>
    have hanswer : ((Program.call (.isDirectory checked)).run
        (Host.world Host.fileSystem console) s).value = s.files.isDirectory checked := rfl
    simp only [Program.run_bind_value, hanswer]
    cases hdirectory : s.files.isDirectory checked with
    | true =>
      refine ⟨fun h => ⟨checked, rfl, hdirectory, (Except.ok.inj h).symm⟩, ?_⟩
      rintro ⟨_, ⟨⟩, _, rfl⟩
      rfl
    | false =>
      refine iff_of_false nofun ?_
      rintro ⟨_, ⟨⟩, htrue, _⟩
      cases hdirectory.symm.trans htrue

/-- Where a plan starts when a directory was given. It starts in a directory
if and only if that is the folded path of one that was given: the path made
absolute leads to a directory, and so does the path as it was given, if it
is not too long for the system. The folded path leads to the same one if
every `..` leads back. -/
theorem plan_directory (hargs : Options.parse args = .ok o) (hv : o.directory = some v)
    (hprocess : s.files.ProcessStands) :
    ((plan s.files.currentDirectory args).run
        (Host.world Host.fileSystem console) s).value.directory? = some directory ↔
      ∃ checked spot node, absoluteDirectory s.files.currentDirectory ⟨v⟩ = .ok checked ∧
        s.files.locate checked = .ok (spot, node) ∧ node.isDirectory = true ∧
        (Utf8.size v ≤ Host.pathLimit → s.files.locate ⟨v⟩ = .ok (spot, node)) ∧
        directory = checked.normal ∧
        (s.files.StepsBack checked → s.files.locate directory = .ok (spot, node)) := by
  rw [directory?_plan_iff hargs, hv, startDirectory_given_iff]
  constructor
  · rintro ⟨checked, hchecked, hdirectory, rfl⟩
    obtain ⟨spot, node, hlocate, hnode⟩ := Host.isDirectory_iff.mp hdirectory
    obtain ⟨htext, process, habsolute, rfl, hrelative⟩ := absoluteDirectory_eq_ok hchecked
    rw [startIn_absolute habsolute]
    refine ⟨_, spot, node, hchecked, hlocate, hnode, fun hsize => ?_, rfl, fun hback => ?_⟩
    · exact Host.locate_of_absolute habsolute htext hsize
        (fun hv => process_of_currentDirectory hprocess (hrelative hv)) hlocate hnode
    · exact Host.locate_normal (Path.components_absolute habsolute ⟨v⟩).1 hback hlocate hnode
  · rintro ⟨checked, spot, node, hchecked, hlocate, hnode, -, rfl, -⟩
    obtain ⟨_, process, habsolute, rfl, _⟩ := absoluteDirectory_eq_ok hchecked
    exact ⟨_, hchecked, Host.isDirectory_iff.mpr ⟨spot, node, hlocate, hnode⟩,
      (startIn_absolute habsolute).symm⟩

end

/-- Back out of a directory that was reached by a link: the `..` takes back
an ordinary name, so the session's `/l` is the directory that was given. -/
theorem plan_directory_below_link :
    let h : Host :=
      ⟨.directory 0 [(['l'], .link ⟨['a', '/', 'b']⟩),
        (['a'], .directory 0 [(['b'], .directory 0 [(['c'], .directory 0 [])])])], .inTree []⟩
    let given : Path := ⟨['l', '/', 'c', '/', '.', '.']⟩
    let args : List Text := [['-', 'C'], given.text]
    ((plan h.currentDirectory args).run (Host.world Host.fileSystem Console.screen)
        ⟨h, {}⟩).value.directory? = some ⟨['/', 'l']⟩ ∧
      ∃ spot node, h.locate given = .ok (spot, node) ∧ node.isDirectory = true ∧
        h.locate ⟨['/', 'l']⟩ = .ok (spot, node) := by
  intro h given args
  have hplan : ((plan h.currentDirectory args).run (Host.world Host.fileSystem Console.screen)
      ⟨h, {}⟩).value.directory? = some ⟨['/', 'l']⟩ := by decide
  have hargs : Options.parse args = .ok { directory := some given.text } := rfl
  have hprocess : h.ProcessStands := by
    rintro place ⟨⟩
    exact ⟨⟨0, rfl⟩, by simp⟩
  obtain ⟨checked, spot, node, hchecked, _, hnode, hgiven, _, hback⟩ :=
    (plan_directory (s := ⟨h, ({} : Console.Screen)⟩) hargs rfl hprocess).mp hplan
  obtain rfl : checked = ⟨['/', 'l', '/', 'c', '/', '.', '.']⟩ := (Except.ok.inj hchecked).symm
  refine ⟨hplan, spot, node, hgiven (by decide), hnode, hback ?_⟩
  intro front rest hfront
  obtain ⟨rfl, rfl⟩ : front = [.root, .name ['l'], .name ['c']] ∧ rest = [] := by
    have hcomponents : [.root, .name ['l'], .name ['c'], .parent] = front ++ .parent :: rest :=
      hfront
    simpa [List.cons_eq_append_iff] using hcomponents
  have hc : h.Names ⟨['/', 'l', '/', 'c']⟩ [['a'], ['b'], ['c']] :=
    ⟨[['a'], ['b']], ['c'], rfl, by decide, rfl⟩
  refine Host.leadsBack_of_no_link fun place target hn => ?_
  obtain rfl := hc.unique hn
  exact nofun

/-- Back over a link: the path that was given leads to `/a/x`, which is what
was checked, and the session starts in `/x`, which is not there. -/
theorem plan_misses_directory :
    let h : Host :=
      ⟨.directory 0 [(['l'], .link ⟨['a', '/', 'b']⟩),
        (['a'], .directory 0 [(['b'], .directory 0 []), (['x'], .directory 0 [])])], .inTree []⟩
    let given : Path := ⟨['l', '/', '.', '.', '/', 'x']⟩
    let args : List Text := [['-', 'C'], given.text]
    ((plan h.currentDirectory args).run (Host.world Host.fileSystem Console.screen)
        ⟨h, {}⟩).value.directory? = some ⟨['/', 'x']⟩ ∧
      h.isDirectory given = true ∧ h.exists? ⟨['/', 'x']⟩ = false :=
  ⟨by decide, by decide, by decide⟩

end CommandLine

end FileShell

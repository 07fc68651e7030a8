/-
FileShell.Proofs.Builtin.Listing — what `ls` shows, and that nothing but
the names and the flags counts.

The arguments are read one after another, and what comes out is said
without the order (`foldl_add`): which flags are there, and which of the
other arguments is the last.

The names are filtered, sorted and perhaps turned round. Sorting goes by
the numbers of the characters, which is the order of the bytes
(`nameLE_iff`), and in that order there is only one way to put a row of
names (`mergeSort_congr`). So the lines are the names that are to be
shown, in the order of their bytes or in the reverse of it, whatever order
they were given in. `ls_in_order` has it all.
-/
import FileShell.Proofs.Builtin.Orders
import FileShell.Proofs.Text.Ordering

namespace FileShell

namespace Builtin

/-! ## The arguments -/

/-- Whether an argument is a flag of `ls`. -/
def isFlag (arg : Text) : Bool := arg = ['-', 'a'] || arg = ['-', 'r']

/-- The arguments of `ls` that name a directory. -/
def directoriesOf (args : List Text) : List Text := args.filter fun arg => !isFlag arg

/-- Reading on from a listing: a flag that is there is set, and the last
directory counts. -/
theorem foldl_add (args : List Text) (l : Listing) :
    args.foldl Listing.add l =
      ⟨l.showHidden || decide (['-', 'a'] ∈ args), l.reverse || decide (['-', 'r'] ∈ args),
        (directoriesOf args).getLast?.or l.path⟩ := by
  induction args generalizing l with
  | nil => simp [directoriesOf]
  | cons arg args ih =>
    rw [List.foldl_cons, ih, Listing.add]
    split
    · next ha =>
      subst ha
      simp [directoriesOf, isFlag]
    · next ha =>
      split
      · next hr =>
        subst hr
        simp [directoriesOf, isFlag]
      · next hr => simp [directoriesOf, isFlag, ha, hr, List.getLast?_cons, eq_comm]

/-- What `ls` makes of its arguments. -/
theorem listing_of_args (args : List Text) :
    args.foldl Listing.add {} =
      ⟨decide (['-', 'a'] ∈ args), decide (['-', 'r'] ∈ args), (directoriesOf args).getLast?⟩ := by
  rw [foldl_add]
  simp

/-! ## The order of names -/

/-- Names are compared by their bytes. -/
theorem nameLE_iff {t u : Text} : nameLE t u = true ↔ t.bytes ≤ u.bytes := by
  induction t generalizing u with
  | nil => exact iff_of_true rfl (List.nil_le _)
  | cons c t ih =>
    cases u with
    | nil =>
      refine iff_of_false nofun fun hle => ?_
      have hnil : Text.bytes (c :: t) = [] := List.le_antisymm hle (List.nil_le _)
      cases Utf8.encode_eq_nil_iff.mp hnil
    | cons d u =>
      rw [nameLE]
      rcases Nat.lt_trichotomy c.toNat d.toNat with hlt | heq | hgt
      · exact iff_of_true (by simp [hlt]) (List.le_of_lt (Utf8.encode_cons_lt hlt t u))
      · obtain rfl : c = d := Char.toNat_inj.mp heq
        rw [Text.bytes, Text.bytes, Utf8.encode_cons_le_cons_self, ← ih]
        simp
      · have hne : c ≠ d := by
          rintro rfl
          exact Nat.lt_irrefl _ hgt
        exact iff_of_false (by simp [hne, Nat.not_lt_of_lt hgt])
          (List.not_le.mpr (Utf8.encode_cons_lt hgt u t))

theorem nameLE_trans (t u v : Text) (h : nameLE t u = true) (h' : nameLE u v = true) :
    nameLE t v = true :=
  nameLE_iff.mpr (List.le_trans (nameLE_iff.mp h) (nameLE_iff.mp h'))

theorem nameLE_total (t u : Text) : (nameLE t u || nameLE u t) = true := by
  rw [Bool.or_eq_true, nameLE_iff, nameLE_iff]
  exact List.le_total _ _

theorem nameLE_antisymm {t u : Text} (h : nameLE t u = true) (h' : nameLE u t = true) : t = u :=
  Utf8.encode_injective (List.le_antisymm (nameLE_iff.mp h) (nameLE_iff.mp h'))

/-- There is one way to put names in order. -/
theorem mergeSort_congr {names names' : List Text} (h : names.Perm names') :
    names.mergeSort nameLE = names'.mergeSort nameLE := by
  have hsorted := List.pairwise_mergeSort nameLE_trans nameLE_total
  have hperm : (names.mergeSort nameLE).Perm (names'.mergeSort nameLE) :=
    ((List.mergeSort_perm names nameLE).trans h).trans (List.mergeSort_perm names' nameLE).symm
  exact hperm.eq_of_pairwise (fun _ _ _ _ => nameLE_antisymm) (hsorted names) (hsorted names')

/-! ## The lines -/

theorem isHidden_eq (name : Text) : isHidden name = decide (name.head? = some '.') := by
  cases name with
  | nil => rfl
  | cons c rest => by_cases hc : c = '.' <;> simp [isHidden, hc]

namespace Listing

variable (l : Listing) {names names' : List Text}

/-- No name is lost, and none is shown twice. -/
theorem shown_perm (names : List Text) :
    (l.shown names).Perm (names.filter fun n => l.showHidden || !isHidden n) := by
  have hsorted := List.mergeSort_perm (names.filter fun n => l.showHidden || !isHidden n) nameLE
  unfold shown
  split
  · exact (List.reverse_perm _).trans hsorted
  · exact hsorted

theorem shown_pairwise (hreverse : l.reverse = false) (names : List Text) :
    (l.shown names).Pairwise fun t u => t.bytes ≤ u.bytes := by
  simp only [shown, hreverse, Bool.false_eq_true, if_false]
  exact (List.pairwise_mergeSort nameLE_trans nameLE_total _).imp nameLE_iff.mp

theorem shown_reverse (hreverse : l.reverse = true) (names : List Text) :
    l.shown names = (({ l with reverse := false } : Listing).shown names).reverse := by
  simp [shown, hreverse]

theorem shown_congr (h : names.Perm names') : l.shown names = l.shown names' := by
  simp only [shown, mergeSort_congr (h.filter _)]

end Listing

/-- The lines of `ls`, for a directory with some names. -/
def lsLines (args names : List Text) : List Text := (args.foldl Listing.add {}).shown names

/-- The same arguments without the flag for the reverse order. -/
theorem listing_without_reverse (args : List Text) :
    (args.filter (· ≠ ['-', 'r'])).foldl Listing.add {} =
      { args.foldl Listing.add {} with reverse := false } := by
  have hdirectories : directoriesOf (args.filter (· ≠ ['-', 'r'])) = directoriesOf args := by
    rw [directoriesOf, List.filter_filter]
    exact List.filter_congr fun arg _ => by simp [isFlag]
  rw [listing_of_args, listing_of_args, hdirectories]
  simp

/-- How `ls` comes to succeed: it is told that its place is a directory,
and which names are in it. -/
theorem runs_runLs_iff (l : Listing) {dir : Path} {es : List Exchange} {s : Success} :
    (runLs l dir).run.Runs es (.ok s) ↔
      ∃ names, es = [⟨.files (.isDirectory (l.place dir)), true⟩,
          ⟨.files (.entries (l.place dir)), .ok names⟩] ∧
        s = ⟨0, (linesText (l.shown names)).bytes, dir⟩ := by
  rw [run_runLs]
  constructor
  · intro h
    cases h with
    | ask _ isDirectory h =>
    cases isDirectory with
    | false => cases h
    | true =>
      cases h with
      | ask _ names h =>
      cases names with
      | error e => cases h
      | ok names =>
        cases h
        exact ⟨names, rfl, rfl⟩
  · rintro ⟨names, rfl, rfl⟩
    refine .ask (.files (.isDirectory (l.place dir))) true ?_
    exact .ask (.files (.entries (l.place dir))) (Except.ok names) (.done _)

/-- `ls` with any arguments: the flags are those that are there, and the
last of the other arguments is the directory. It succeeds exactly if it is
told the names in there, and its lines are these, without the hidden ones
unless `-a` is given, in the order of their bytes, or in the reverse of
that if `-r` is given. So the order in which the names are told makes no
difference, and the order of the arguments only where it is that of the
directories. -/
theorem ls_in_order (args : List Text) (dir : Path) :
    let place := match (directoriesOf args).getLast? with
      | some arg => dir.resolve arg
      | none => dir
    ofArgs .ls args = .ok (.ls ⟨decide (['-', 'a'] ∈ args), decide (['-', 'r'] ∈ args),
      (directoriesOf args).getLast?⟩) ∧
    (∀ es code output dir', ((command .ls args).run dir).Runs es ⟨.ok code, output, dir'⟩ ↔
      ∃ names, es = [⟨.files (.isDirectory place), true⟩, ⟨.files (.entries place), .ok names⟩] ∧
        code = 0 ∧ output = (linesText (lsLines args names)).bytes ∧ dir' = dir) ∧
    (∀ names, (lsLines args names).Perm
      (names.filter fun n => ['-', 'a'] ∈ args ∨ n.head? ≠ some '.')) ∧
    (∀ names, ['-', 'r'] ∉ args →
      (lsLines args names).Pairwise fun t u => t.bytes ≤ u.bytes) ∧
    (∀ names, ['-', 'r'] ∈ args →
      lsLines args names = (lsLines (args.filter (· ≠ ['-', 'r'])) names).reverse) ∧
    (∀ names names', names.Perm names' → lsLines args names = lsLines args names') ∧
    (∀ args', args.Perm args' → directoriesOf args = directoriesOf args' →
      command .ls args = command .ls args') := by
  intro place
  have hlisting := listing_of_args args
  refine ⟨?_, fun es code output dir' => ?_, fun names => ?_, fun names hr => ?_,
    fun names hr => ?_, fun names names' h => Listing.shown_congr _ h, fun args' h hd => ?_⟩
  · rw [ofArgs, hlisting]
  · have hplace : (args.foldl Listing.add {}).place dir = place := by rw [hlisting]; rfl
    rw [run_command_ok rfl, Program.runs_map_iff, ← hplace]
    constructor
    · rintro ⟨r, hr, hout⟩
      cases r with
      | error f => cases hout
      | ok s =>
        obtain ⟨names, rfl, rfl⟩ := (runs_runLs_iff _).mp hr
        cases hout
        exact ⟨names, rfl, rfl, rfl, rfl⟩
    · rintro ⟨names, rfl, rfl, rfl, rfl⟩
      exact ⟨.ok _, (runs_runLs_iff _).mpr ⟨names, rfl, rfl⟩, rfl⟩
  · refine (Listing.shown_perm _ names).trans (.of_eq (List.filter_congr fun n _ => ?_))
    rw [hlisting, isHidden_eq]
    simp
  · exact Listing.shown_pairwise _ (by rw [hlisting]; simpa using hr) names
  · rw [lsLines, lsLines, listing_without_reverse]
    exact Listing.shown_reverse _ (by rw [hlisting]; simpa using hr) names
  · have hsame : args.foldl Listing.add {} = args'.foldl Listing.add {} := by
      rw [hlisting, listing_of_args, hd]
      simp only [h.mem_iff]
    rw [command, command, ofArgs, ofArgs, hsame]

/-- `ls -r d -a` in two orders, for a directory that tells its names in two. -/
theorem ls_in_order_shuffled :
    let args : List Text := [['-', 'r'], ['d'], ['-', 'a']]
    let args' : List Text := [['d'], ['-', 'a'], ['-', 'r']]
    let names : List Text := [['b'], ['.', 'h'], ['a'], ['é']]
    let names' : List Text := [['é'], ['a'], ['b'], ['.', 'h']]
    command .ls args = command .ls args' ∧
      lsLines args names = lsLines args names' ∧
      lsLines args names = (lsLines [['d'], ['-', 'a']] names).reverse ∧
      (lsLines [['d'], ['-', 'a']] names).Pairwise fun t u => t.bytes ≤ u.bytes := by
  intro args args' names names'
  obtain ⟨_, _, _, _, hreverse, hnames, hargs⟩ := ls_in_order args Path.root
  obtain ⟨_, _, _, hsorted, _⟩ := ls_in_order [['d'], ['-', 'a']] Path.root
  exact ⟨hargs args' (by decide) (by decide), hnames names names' (by decide),
    hreverse names (by decide), hsorted names (by decide)⟩

end Builtin

end FileShell

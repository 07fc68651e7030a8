/-
FileShell.Proofs.Builtin.Concatenating — what `cat` makes of the bytes of
a file.

`catOutput` is the output for one file with some content; `run_cat_file`
says so of every run. It is read off the content line by line
(`Host.linesOf_line`): each line is decoded, loses one carriage return if
a newline followed it, and gets a newline.

* Cutting at newlines and decoding can be done in either order
  (`Host.linesOf_decoded`): neither a newline nor a carriage return is ever
  a part of a character or of a fault.
* The lines of the output are the lines of the content, less one more
  carriage return each (`Host.linesOf_linesText`).

`cat_line_by_line` has the laws that follow, among them which contents
come out as they were.
-/
import FileShell.Builtin.Table
import FileShell.Host.FileSystem
import FileShell.Proofs.Builtin.Orders
import FileShell.Proofs.Program.Running
import FileShell.Proofs.Text.Lines

namespace FileShell

open Lines (newline carriageReturn withoutLast)
open Utf8

/-! ## The lines of some content -/

namespace Host

theorem linesOf_last {l : Bytes} (hne : l ≠ []) (hl : newline ∉ l) :
    linesOf l = [decodeLossy l] := by
  rw [linesOf, Lines.rawLines_last hne hl, List.map_singleton, Lines.chomp_last hl]

theorem linesOf_line {l : Bytes} (hl : newline ∉ l) (rest : Bytes) :
    linesOf (l ++ newline :: rest) = withoutLast '\r' (decodeLossy l) :: linesOf rest := by
  rw [linesOf, Lines.rawLines_line hl, List.map_cons, Lines.chomp_line, decodeLossy_withoutReturn]
  rfl

/-- No line holds a newline. -/
theorem newline_notMem_of_mem_linesOf {content : Bytes} :
    ∀ t ∈ linesOf content, '\n' ∉ t := by
  induction content using Lines.induction with
  | nil => simp [linesOf, Lines.rawLines]
  | last l hne hl =>
    rw [linesOf_last hne hl]
    exact List.forall_mem_singleton.mpr (newline_notMem_decodeLossy hl)
  | line l rest hl ih =>
    rw [linesOf_line hl]
    have hline : '\n' ∉ withoutLast '\r' (decodeLossy l) :=
      mt Lines.mem_of_mem_withoutLast (newline_notMem_decodeLossy hl)
    exact List.forall_mem_cons.mpr ⟨hline, ih⟩

/-- The lines are the same whether the content is decoded first and then
cut, or cut first. -/
theorem linesOf_decoded (content : Bytes) :
    linesOf (decodeLossy content).bytes = linesOf content := by
  have hencoded {l : Bytes} (hl : newline ∉ l) : newline ∉ (decodeLossy l).bytes := by
    rw [mem_encode_iff newline_ascii]
    exact newline_notMem_decodeLossy hl
  induction content using Lines.induction with
  | nil => rfl
  | last l hne hl =>
    have hne' : (decodeLossy l).bytes ≠ [] := by
      rwa [Ne, encode_eq_nil_iff, decodeLossy_eq_nil_iff]
    rw [linesOf_last hne' (hencoded hl), linesOf_last hne hl, decodeLossy_encode]
  | line l rest hl ih =>
    have hcut : (decodeLossy (l ++ newline :: rest)).bytes =
        (decodeLossy l).bytes ++ newline :: (decodeLossy rest).bytes := by
      rw [decodeLossy_append_ascii newline_ascii, Text.bytes, encode_append]
      rfl
    rw [hcut, linesOf_line (hencoded hl), linesOf_line hl, decodeLossy_encode, ih]

theorem bytes_linesText_cons (t : Text) (ts : List Text) :
    (Builtin.linesText (t :: ts)).bytes = t.bytes ++ newline :: (Builtin.linesText ts).bytes := by
  rw [Builtin.linesText, List.flatMap_cons, Text.bytes, encode_append, encode_append,
    List.append_assoc]
  rfl

/-- Lines that are written and read again lose a carriage return each. -/
theorem linesOf_linesText {ts : List Text} (hts : ∀ t ∈ ts, '\n' ∉ t) :
    linesOf (Builtin.linesText ts).bytes = ts.map (withoutLast '\r') := by
  induction ts with
  | nil => rfl
  | cons t ts ih =>
    obtain ⟨ht, hts⟩ := List.forall_mem_cons.mp hts
    have hline : newline ∉ t.bytes := by rwa [mem_encode_iff newline_ascii]
    rw [bytes_linesText_cons, linesOf_line hline, decodeLossy_encode, ih hts, List.map_cons]

end Host

/-! ## What `cat` makes of a file -/

namespace Builtin

/-- The bytes that `cat` writes for a file with some content. -/
def catOutput (content : Bytes) : Bytes := (linesText (Host.linesOf content)).bytes

/-- A reader that has good lines with it gives them all. -/
theorem run_readOn {κ : Type} (con : Console κ) (h : Host) (k : κ) (lines latest : List Text)
    (most : Nat) :
    ((readOn (lines.length + 1) ⟨most, lines.map .ok⟩ latest).run.run
      (Host.world Host.fileSystem con) ⟨h, k⟩).value =
        .ok (linesText (latest.reverse ++ lines), false) := by
  induction lines generalizing latest most with
  | nil =>
    rw [List.append_nil]
    rfl
  | cons line lines ih =>
    rw [run_readOn_succ, Program.run_ask]
    exact (ih (line :: latest) (most - 1)).trans (by simp)

/-- Where its argument leads to a file, `cat` succeeds with these bytes. -/
theorem run_cat_file {κ : Type} (con : Console κ) {h : Host} {dir : Path} {name : Text}
    {spot : Host.Spot} {content : Bytes}
    (hfile : h.locate (dir.resolve name) = .ok (spot, .file content)) (k : κ) :
    (((command .cat [name]).run dir).run (Host.world Host.fileSystem con) ⟨h, k⟩).value =
      ⟨.ok 0, catOutput content, dir⟩ := by
  have hexists : h.exists? (dir.resolve name) = true := by rw [Host.exists?, hfile]; rfl
  have hlines : h.readLines (dir.resolve name) = .ok ((Host.linesOf content).map .ok) := by
    rw [Host.readLines, Host.openForRead_all, hfile]
  have hread : ((readFile dir name).run.run (Host.world Host.fileSystem con) ⟨h, k⟩).value =
      .ok (linesText (Host.linesOf content), false) := by
    rw [run_readFile]
    simp only [Program.run_ask, World.answer, Host.world, Host.fileSystem, Host.answer, hexists,
      hlines, Except.map, if_true]
    rw [Files.Reader.of, List.length_map]
    exact run_readOn con h k (Host.linesOf content) [] _
  have hcat : ((runCat [name] dir).run.run (Host.world Host.fileSystem con) ⟨h, k⟩).value =
      .ok ⟨0, catOutput content, dir⟩ := by
    rw [runCat, readFiles, bind_assoc, Program.run_attempt_bind_value _ _ _ hread]
    simp only [readFiles, pure_bind, List.append_nil]
    rfl
  rw [run_command_ok rfl, Program.map_eq_bind, Program.run_bind_value, perform, hcat]
  rfl

section

variable {l : Bytes}

theorem catOutput_last (hne : l ≠ []) (hl : newline ∉ l) :
    catOutput l = (decodeLossy l).bytes ++ [newline] := by
  rw [catOutput, Host.linesOf_last hne hl, linesText, List.flatMap_singleton, Text.bytes,
    encode_append]
  rfl

theorem catOutput_line (hl : newline ∉ l) (rest : Bytes) :
    catOutput (l ++ newline :: rest) =
      Text.bytes (withoutLast '\r' (decodeLossy l)) ++ newline :: catOutput rest := by
  rw [catOutput, Host.linesOf_line hl, Host.bytes_linesText_cons]
  rfl

theorem newline_notMem_withoutReturn (hl : newline ∉ l) :
    newline ∉ Text.bytes (withoutLast '\r' (decodeLossy l)) := by
  rw [mem_encode_iff newline_ascii]
  exact mt Lines.mem_of_mem_withoutLast (newline_notMem_decodeLossy hl)

/-- A line is written as it was if it is text and loses no carriage return. -/
theorem bytes_withoutReturn_eq_iff :
    Text.bytes (withoutLast '\r' (decodeLossy l)) = l ↔
      (∃ t : Text, t.bytes = l) ∧ l.getLast? ≠ some carriageReturn := by
  rw [Ne, ← getLast?_decodeLossy_return]
  constructor
  · intro h
    have hdecoded : decodeLossy l = withoutLast '\r' (decodeLossy l) := by
      conv_lhs => rw [← h]
      exact decodeLossy_encode _
    exact ⟨⟨_, h⟩, Lines.withoutLast_eq_self_iff.mp hdecoded.symm⟩
  · rintro ⟨⟨t, rfl⟩, hlast⟩
    rw [decodeLossy_encode] at hlast ⊢
    rw [Lines.withoutLast_eq_self_iff.mpr hlast]

end

/-- A file comes out as it was if and only if it is text, no line of it
ends with a carriage return, and it ends with a newline unless it is empty. -/
theorem catOutput_eq_self_iff (content : Bytes) :
    catOutput content = content ↔
      (∃ t : Text, t.bytes = content) ∧ ¬ [carriageReturn, newline] <:+: content ∧
        (content = [] ∨ content.getLast? = some newline) := by
  induction content using Lines.induction with
  | nil => exact iff_of_true rfl ⟨⟨[], rfl⟩, by simp, .inl rfl⟩
  | last l hne hl =>
    refine iff_of_false (fun h => hl ?_) fun ⟨_, _, hend⟩ => ?_
    · rw [catOutput_last hne hl] at h
      exact h ▸ List.mem_append_right _ (List.mem_singleton_self _)
    · exact hl (List.mem_of_getLast? (hend.resolve_left hne))
  | line l rest hl ih =>
    have hend : l ++ newline :: rest = [] ∨ (l ++ newline :: rest).getLast? = some newline ↔
        rest = [] ∨ rest.getLast? = some newline := by
      cases rest with
      | nil => simp
      | cons b rest => simp
    rw [catOutput_line hl, Lines.append_cons_inj (newline_notMem_withoutReturn hl) hl,
      bytes_withoutReturn_eq_iff, ih, exists_encode_append_ascii_iff newline_ascii,
      Lines.infix_line_iff hl, hend, not_or]
    constructor
    · rintro ⟨⟨htext, hlast⟩, hrest, hplain, hend⟩
      exact ⟨⟨htext, hrest⟩, ⟨hlast, hplain⟩, hend⟩
    · rintro ⟨⟨htext, hrest⟩, ⟨hlast, hplain⟩, hend⟩
      exact ⟨⟨htext, hlast⟩, hrest, hplain, hend⟩

theorem linesText_inj {ts us : List Text} (hts : ∀ t ∈ ts, '\n' ∉ t) (hus : ∀ t ∈ us, '\n' ∉ t) :
    linesText ts = linesText us ↔ ts = us := by
  induction ts generalizing us with
  | nil => cases us <;> simp [linesText]
  | cons t ts ih =>
    cases us with
    | nil => simp [linesText]
    | cons u us =>
      obtain ⟨ht, hts⟩ := List.forall_mem_cons.mp hts
      obtain ⟨hu, hus⟩ := List.forall_mem_cons.mp hus
      have hcut (t : Text) (ts : List Text) :
          linesText (t :: ts) = t ++ '\n' :: linesText ts := by simp [linesText]
      rw [hcut, hcut, Lines.append_cons_inj ht hu, ih hts hus, List.cons.injEq]

/-- The output tells the lines of the file. -/
theorem catOutput_eq_iff {content content' : Bytes} :
    catOutput content = catOutput content' ↔ Host.linesOf content = Host.linesOf content' := by
  rw [catOutput, catOutput, Text.bytes, Text.bytes, encode_injective.eq_iff,
    linesText_inj Host.newline_notMem_of_mem_linesOf Host.newline_notMem_of_mem_linesOf]

theorem linesOf_catOutput (content : Bytes) :
    Host.linesOf (catOutput content) = (Host.linesOf content).map (withoutLast '\r') :=
  Host.linesOf_linesText Host.newline_notMem_of_mem_linesOf

/-- A second time nothing changes if and only if no line still ends with a
carriage return. -/
theorem catOutput_catOutput_iff (content : Bytes) :
    catOutput (catOutput content) = catOutput content ↔
      ∀ t ∈ Host.linesOf content, t.getLast? ≠ some '\r' := by
  have hself (ts : List Text) : ts.map (withoutLast '\r') = ts ↔ ∀ t ∈ ts, withoutLast '\r' t = t := by
    conv_lhs => rhs; rw [← List.map_id ts]
    exact List.map_inj_left
  rw [catOutput_eq_iff, linesOf_catOutput, hself]
  exact forall₂_congr fun t _ => Lines.withoutLast_eq_self_iff

/-- What `cat` writes for a file depends on the lines of its text alone:
it may be decoded first or cut into lines first. The file comes out as it
was if it is text without a carriage return at the end of a line, and ends
with a newline or is empty. Each time the output goes through `cat` again,
every line loses one more carriage return, until none ends with one. -/
theorem cat_line_by_line (content : Bytes) :
    (∀ {κ : Type} (con : Console κ) (h : Host) (dir : Path) (name : Text) (spot : Host.Spot)
      (k : κ), h.locate (dir.resolve name) = .ok (spot, .file content) →
      (((command .cat [name]).run dir).run (Host.world Host.fileSystem con) ⟨h, k⟩).value =
        ⟨.ok 0, catOutput content, dir⟩) ∧
    catOutput content = catOutput (decodeLossy content).bytes ∧
    (catOutput content = content ↔
      (∃ t : Text, t.bytes = content) ∧ ¬ [carriageReturn, newline] <:+: content ∧
        (content = [] ∨ content.getLast? = some newline)) ∧
    Host.linesOf (catOutput content) = (Host.linesOf content).map (withoutLast '\r') ∧
    (catOutput (catOutput content) = catOutput content ↔
      ∀ t ∈ Host.linesOf content, t.getLast? ≠ some '\r') :=
  ⟨fun con _ _ _ _ k hfile => run_cat_file con hfile k,
    catOutput_eq_iff.mpr (Host.linesOf_decoded content).symm, catOutput_eq_self_iff content,
    linesOf_catOutput content, catOutput_catOutput_iff content⟩

/-- A byte that is no text comes out as U+FFFD. Of two carriage returns at
the end of a line one comes out, and none if `cat` is given its own output. -/
theorem cat_line_by_line_two_returns :
    let content : Bytes := [0x61, 0xFF, 0x0D, 0x0D, 0x0A, 0x62]
    let h : Host := ⟨.directory 0 [(['f'], .file content)], .inTree []⟩
    (((command .cat [['f']]).run Path.root).run (Host.world Host.fileSystem Console.screen)
        ⟨h, {}⟩).value =
      ⟨.ok 0, [0x61, 0xEF, 0xBF, 0xBD, 0x0D, 0x0A, 0x62, 0x0A], Path.root⟩ ∧
    catOutput (catOutput content) ≠ catOutput content := by
  intro content h
  obtain ⟨hrun, _, _, _, htwice⟩ := cat_line_by_line content
  have houtput : catOutput content = [0x61, 0xEF, 0xBF, 0xBD, 0x0D, 0x0A, 0x62, 0x0A] := by decide
  refine ⟨?_, mt htwice.mp (by decide)⟩
  rw [← houtput]
  exact hrun Console.screen h Path.root ['f'] _ {} rfl

end Builtin

end FileShell

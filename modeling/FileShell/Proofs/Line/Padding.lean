/-
FileShell.Proofs.Line.Padding — where white space makes no difference.

White space in the Unicode sense is free at the ends of a segment, and
U+0020 next to another U+0020 (`Padding`). Anywhere else it is read: a tab
between two words makes them one token.

A line and the same line with padding put in (`Pads`) have the same
segments, token by token (`map_tokens_of_pads`): no bar is put in, so only
the segment around the padding changes, by what its trimming takes off or
by an empty piece between two spaces. What a segment stands for is read
off its tokens (`invocation?_congr`), so nothing else of the parser has to
be looked at.

`invocations_padded` has the whole law: any amount of padding, a trimmed
line, and segments that are written with single spaces. That a trimmed
line asks for the same invocations is what a session relies on
(`invocations_trim`).
-/
import Mathlib.Data.List.Basic
import Mathlib.Logic.Relation
import FileShell.Proofs.Line.Tokens

namespace FileShell

theorem Text.IsBlank.bar_notMem {pad : Text} (h : pad.IsBlank) : '|' ∉ pad := by
  intro hbar
  have hblank : isBlank '|' = true := h '|' hbar
  exact absurd hblank (by decide)

namespace Line

/-! ## What is padding -/

/-- A text is padding where it is put between a front and a rest. -/
inductive Padding (front pad rest : Text) : Prop where
  /-- White space at the start of a segment. -/
  | start (hpad : pad.IsBlank) (hfront : ∀ c ∈ front.getLast?, c = '|')
  /-- White space at the end of a segment. -/
  | finish (hpad : pad.IsBlank) (hrest : ∀ c ∈ rest.head?, c = '|')
  /-- Spaces behind a space. -/
  | behind (hpad : ∀ c ∈ pad, c = ' ') (hfront : front.getLast? = some ' ')
  /-- Spaces in front of a space. -/
  | before (hpad : ∀ c ∈ pad, c = ' ') (hrest : rest.head? = some ' ')

/-- A line is another one with padding put in at one place. -/
def Pads (line padded : Text) : Prop :=
  ∃ front pad rest, Padding front pad rest ∧ line = front ++ rest ∧ padded = front ++ pad ++ rest

theorem isBlank_of_spaces {pad : Text} (h : ∀ c ∈ pad, c = ' ') : pad.IsBlank :=
  fun c hc => h c hc ▸ rfl

theorem Padding.isBlank {front pad rest : Text} (h : Padding front pad rest) : pad.IsBlank := by
  cases h with
  | start hpad _ => exact hpad
  | finish hpad _ => exact hpad
  | behind hpad _ => exact isBlank_of_spaces hpad
  | before hpad _ => exact isBlank_of_spaces hpad

/-! ## Segments -/

/-- A segment stands for what its tokens stand for. -/
theorem invocation?_congr {a b : Text} (h : tokens a = tokens b) :
    invocation? a = invocation? b := by
  rw [invocation?, h, invocation?]

theorem entry?_congr {a b : Text} (h : tokens a = tokens b) : entry? a = entry? b := by
  unfold entry?
  rw [invocation?_congr h]

theorem tokens_blank_append {pad : Text} (h : pad.IsBlank) (a : Text) :
    tokens (pad ++ a) = tokens a := by
  rw [tokens, Text.trim_blank_append h, tokens]

theorem tokens_append_blank {pad : Text} (h : pad.IsBlank) (a : Text) :
    tokens (a ++ pad) = tokens a := by
  rw [tokens, Text.trim_append_blank h, tokens]

/-- Spaces in front of a text add empty pieces only. -/
theorem filter_pieces_spaces {pad : Text} (h : ∀ c ∈ pad, c = ' ') (a : Text) :
    (Text.pieces ' ' (pad ++ a)).filter (· ≠ []) = (Text.pieces ' ' a).filter (· ≠ []) := by
  induction pad with
  | nil => rfl
  | cons c pad ih =>
    obtain ⟨rfl, hpad⟩ := List.forall_mem_cons.mp h
    rw [List.cons_append, Text.pieces, if_pos rfl, List.filter_cons_of_neg (by simp), ih hpad]

/-- Some spaces between two texts part the same tokens as one space does. -/
theorem tokens_spaces {pad : Text} (h : ∀ c ∈ pad, c = ' ') (a b : Text) :
    tokens (a ++ ' ' :: pad ++ b) = tokens (a ++ [' '] ++ b) := by
  have hspaces : Text.IsBlank (' ' :: pad) := isBlank_of_spaces (by simpa using h)
  have hspace : Text.IsBlank [' '] := by decide
  by_cases ha : a.IsBlank
  · rw [tokens_blank_append (Text.isBlank_append ha hspaces),
      tokens_blank_append (Text.isBlank_append ha hspace)]
  by_cases hb : b.IsBlank
  · rw [List.append_assoc, List.append_assoc, tokens_append_blank (Text.isBlank_append hspaces hb),
      tokens_append_blank (Text.isBlank_append hspace hb)]
  -- Now the spaces are inside, and trimming does not get at them.
  rw [tokens, tokens, Text.trim_append_append ha hb, Text.trim_append_append ha hb,
    List.append_assoc, List.append_assoc, List.cons_append, List.cons_append,
    Text.pieces_append_sep, Text.pieces_append_sep, List.filter_append, List.filter_append,
    filter_pieces_spaces h, List.nil_append]

/-- A segment has the tokens of its tokens written with single spaces. -/
theorem tokens_joined_tokens (segment : Text) :
    tokens (Text.joined ' ' (tokens segment)) = tokens segment := by
  refine tokens_joined (fun w hw => mem_tokens hw) (fun w hw => ?_) fun w hw =>
    isBlank_last_token hw
  obtain ⟨args, hargs⟩ := List.head?_eq_some_iff.mp hw
  exact isBlank_first_token hargs

/-! ## Lines -/

/-- Lines whose segments have the same tokens ask for the same invocations. -/
theorem invocations_congr {a b : Text} (h : (segments a).map tokens = (segments b).map tokens) :
    invocations a = invocations b := by
  have hread (line : Text) : invocations line =
      ((segments line).map tokens).filterMap fun ts => entry? (Text.joined ' ' ts) := by
    rw [invocations, List.filterMap_map]
    refine List.filterMap_congr fun segment _ => ?_
    rw [Function.comp_apply, entry?_congr (tokens_joined_tokens segment)]
  rw [hread, h, hread]

theorem exists_segments_concat_nil {front : Text} (h : ∀ c ∈ front.getLast?, c = '|') :
    ∃ ps, segments front = ps ++ [[]] := by
  rcases List.eq_nil_or_concat front with rfl | ⟨front, c, rfl⟩
  · exact ⟨[], rfl⟩
  · obtain rfl : c = '|' := h c (by simp)
    exact ⟨segments front, by rw [List.concat_eq_append, segments_append_bar]; rfl⟩

theorem exists_segments_nil_cons {rest : Text} (h : ∀ c ∈ rest.head?, c = '|') :
    ∃ qs, segments rest = [] :: qs := by
  cases rest with
  | nil => exact ⟨[], rfl⟩
  | cons c rest =>
    obtain rfl : c = '|' := h c rfl
    exact ⟨segments rest, segments_append_bar [] rest⟩

/-- Padding goes to one segment, and leaves it its tokens. -/
theorem Padding.exists_segments {front pad rest : Text} (h : Padding front pad rest) :
    ∃ ps p q qs, segments front = ps ++ [p] ∧ segments rest = q :: qs ∧
      tokens (p ++ pad ++ q) = tokens (p ++ q) := by
  obtain ⟨ps, p, hp⟩ : ∃ ps p, segments front = ps ++ [p] :=
    ⟨_, _, (List.dropLast_concat_getLast (Text.pieces_ne_nil '|' front)).symm⟩
  obtain ⟨q, qs, hq⟩ : ∃ q qs, segments rest = q :: qs :=
    List.exists_cons_of_ne_nil (Text.pieces_ne_nil '|' rest)
  have hbar : ' ' ≠ '|' := by decide
  cases h with
  | start hpad hfront =>
    obtain ⟨ps, hp⟩ := exists_segments_concat_nil hfront
    exact ⟨ps, [], q, qs, hp, hq, tokens_blank_append hpad q⟩
  | finish hpad hrest =>
    obtain ⟨qs, hq⟩ := exists_segments_nil_cons hrest
    refine ⟨ps, p, [], qs, hp, hq, ?_⟩
    rw [List.append_nil, List.append_nil, tokens_append_blank hpad]
  | behind hpad hfront =>
    obtain ⟨ps, p, hp, hlast⟩ := Text.exists_pieces_concat hfront hbar
    obtain ⟨p, rfl⟩ := List.getLast?_eq_some_iff.mp hlast
    refine ⟨ps, p ++ [' '], q, qs, hp, hq, ?_⟩
    rw [List.append_assoc p, List.singleton_append, tokens_spaces hpad]
  | before hpad hrest =>
    obtain ⟨rest, rfl⟩ := List.head?_eq_some_iff.mp hrest
    obtain ⟨q, qs, hq⟩ := Text.exists_pieces_cons hbar rest
    refine ⟨ps, p, ' ' :: q, qs, hp, hq, ?_⟩
    -- The run of spaces starts with one that was put in, if any was.
    cases pad with
    | nil => rw [List.append_nil]
    | cons c pad =>
      obtain ⟨rfl, hpad⟩ := List.forall_mem_cons.mp hpad
      have hrun : p ++ ' ' :: pad ++ ' ' :: q = p ++ ' ' :: (pad ++ [' ']) ++ q := by simp
      have hspaces : ∀ c ∈ pad ++ [' '], c = ' ' := by simpa [or_imp, forall_and] using hpad
      rw [hrun, tokens_spaces hspaces]
      simp

theorem map_tokens_of_pads {line padded : Text} (h : Pads line padded) :
    (segments padded).map tokens = (segments line).map tokens := by
  obtain ⟨front, pad, rest, hpadding, rfl, rfl⟩ := h
  obtain ⟨ps, p, q, qs, hp, hq, htokens⟩ := hpadding.exists_segments
  have hpad : segments (front ++ pad) = ps ++ [p ++ pad] :=
    Text.pieces_append hp (Text.pieces_of_notMem hpadding.isBlank.bar_notMem)
  have hpadded : segments (front ++ pad ++ rest) = ps ++ (p ++ pad ++ q) :: qs :=
    Text.pieces_append hpad hq
  have hline : segments (front ++ rest) = ps ++ (p ++ q) :: qs := Text.pieces_append hp hq
  rw [hpadded, hline, List.map_append, List.map_append, List.map_cons, List.map_cons, htokens]

/-- Any amount of padding leaves the tokens of every segment. -/
theorem map_tokens_of_padded {line padded : Text} (h : Relation.ReflTransGen Pads line padded) :
    (segments padded).map tokens = (segments line).map tokens := by
  induction h with
  | refl => rfl
  | tail _ hpads ih => rw [map_tokens_of_pads hpads, ih]

/-- A line is what trimming leaves of it, padded at both ends. -/
theorem padded_trim (line : Text) : Relation.ReflTransGen Pads line.trim line := by
  obtain ⟨front, back, hfront, hback, hline⟩ := Text.exists_padding line
  have hstart : Pads line.trim (front ++ line.trim) :=
    ⟨[], front, line.trim, .start hfront (by simp), rfl, rfl⟩
  have hfinish : Pads (front ++ line.trim) line :=
    ⟨front ++ line.trim, back, [], .finish hback (by simp), (List.append_nil _).symm,
      hline.trans (List.append_nil _).symm⟩
  exact .tail (.single hstart) hfinish

/-- Trimming a line changes nothing of what it asks for. -/
theorem invocations_trim (line : Text) : invocations line.trim = invocations line :=
  (invocations_congr (map_tokens_of_padded (padded_trim line))).symm

theorem invocations_of_isBlank {line : Text} (h : line.IsBlank) : invocations line = [] := by
  rw [← invocations_trim, Text.trim_eq_nil_of_isBlank h]
  rfl

/-- A line asks for the same invocations, and fails to for the same reasons,
however it is padded: with white space at the ends of its segments and
spaces next to its spaces. So does the line trimmed. A segment stands for
what its tokens stand for, written with single spaces. -/
theorem invocations_padded (line : Text) :
    (∀ padded, Relation.ReflTransGen Pads line padded → invocations padded = invocations line) ∧
      invocations line.trim = invocations line ∧
      ∀ segment : Text, tokens (Text.joined ' ' (tokens segment)) = tokens segment ∧
        invocation? (Text.joined ' ' (tokens segment)) = invocation? segment := by
  refine ⟨fun padded h => ?_, invocations_trim line, fun segment => ?_⟩
  · exact invocations_congr (map_tokens_of_padded h)
  · have htokens := tokens_joined_tokens segment
    exact ⟨htokens, invocation?_congr htokens⟩

/-- A tab and a wide space at the ends of segments, and spaces on both sides
of a space; a tab between two words is no padding. -/
theorem invocations_padded_with_tab :
    invocations "\tls   >\u3000|a b".toList = invocations "ls >|a b".toList ∧
      invocations "ls >|a\tb".toList ≠ invocations "ls >|a b".toList := by
  have htab : Pads "ls >|a b".toList "\tls >|a b".toList :=
    ⟨[], ['\t'], "ls >|a b".toList, .start (by decide) nofun, rfl, rfl⟩
  have hwide : Pads "\tls >|a b".toList "\tls >\u3000|a b".toList :=
    ⟨"\tls >".toList, ['\u3000'], "|a b".toList,
      .finish (by decide) fun _ hc => (Option.some.inj hc).symm, rfl, rfl⟩
  have hspace : Pads "\tls >\u3000|a b".toList "\tls  >\u3000|a b".toList :=
    ⟨"\tls ".toList, [' '], ">\u3000|a b".toList, .behind (by simp) rfl, rfl, rfl⟩
  have hspaces : Pads "\tls  >\u3000|a b".toList "\tls   >\u3000|a b".toList :=
    ⟨"\tls".toList, [' '], "  >\u3000|a b".toList, .before (by simp) rfl, rfl, rfl⟩
  obtain ⟨hpadded, _⟩ := invocations_padded "ls >|a b".toList
  exact ⟨hpadded _ (.tail (.tail (.tail (.single htab) hwide) hspace) hspaces), by decide +kernel⟩

end Line

end FileShell

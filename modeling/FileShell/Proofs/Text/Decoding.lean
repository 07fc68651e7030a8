/-
FileShell.Proofs.Text.Decoding — the scan against the bytes of a text.

The scan cuts bytes into characters and faults. `Scans` says what that
means without the scan: a character stands for the bytes that spell it
(`Spells`, by the character's number), and a fault for a run of bytes that
begin a character and cannot go on with what follows (`Faults`). The scan
finds this and nothing else (`scans_iff`).

Two things follow.

* The scan undoes the encoding, and what it reads without a fault is
  encoded as the same bytes (`scan_eq_map_iff`).
* A byte of ASCII is never a part of anything longer: the scan may be cut
  in front of one and behind it (`scan_append_ascii`), and such a byte is in
  the bytes, or at their end, exactly if its character is in what was read
  (`mem_decodeLossy_iff`, `getLast?_decodeLossy_iff`, and likewise for
  `encode`).
-/
import Mathlib.Data.List.Basic
import FileShell.Text.Utf8

namespace FileShell

namespace Utf8

/-! ## The bytes of a character -/

/-- The first two bytes of a character that has `more` bytes after the
first, and the number that their bits spell. -/
def Opens (b b₁ : UInt8) (more v : Nat) : Prop :=
  b₁.toNat = 0x80 + v % 64 ∧
    (more = 1 ∧ b.toNat = 0xC0 + v / 64 ∧ 0x80 ≤ v ∧ v < 0x800 ∨
      more = 2 ∧ b.toNat = 0xE0 + v / 64 ∧ 0x20 ≤ v ∧ v < 0x400 ∧ ¬ (0x360 ≤ v ∧ v < 0x380) ∨
      more = 3 ∧ b.toNat = 0xF0 + v / 64 ∧ 0x10 ≤ v ∧ v < 0x110)

/-- The bytes of a character, told by its number. -/
inductive Spells : Bytes → Char → Prop where
  | one {b : UInt8} {c : Char} (hb : b < 0x80) (hc : b.toNat = c.toNat) : Spells [b] c
  | two {b b₁ : UInt8} {c : Char} (h : Opens b b₁ 1 c.toNat) : Spells [b, b₁] c
  | three {b b₁ b₂ : UInt8} {c : Char} (h : Opens b b₁ 2 (c.toNat / 64))
      (h₂ : b₂.toNat = 0x80 + c.toNat % 64) : Spells [b, b₁, b₂] c
  | four {b b₁ b₂ b₃ : UInt8} {c : Char} (h : Opens b b₁ 3 (c.toNat / 64 / 64))
      (h₂ : b₂.toNat = 0x80 + c.toNat / 64 % 64) (h₃ : b₃.toNat = 0x80 + c.toNat % 64) :
      Spells [b, b₁, b₂, b₃] c

section

variable {b b₁ : UInt8} {l : Lead} {more v : Nat}

/-- The promises of the first bytes, row by row, are those of the numbers. -/
theorem opens_of_lead? (hl : lead? b = some l) (h₁ : ¬ (b₁ < l.lo ∨ l.hi < b₁)) :
    Opens b b₁ l.more (l.bits * 64 + low6 b₁) := by
  have hb := b.toNat_lt
  have hb₁ := b₁.toNat_lt
  simp only [UInt8.lt_iff_toNat_lt] at h₁
  simp only [lead?, UInt8.lt_iff_toNat_lt, UInt8.le_iff_toNat_le, ← UInt8.toNat_inj] at hl
  simp only [low6, Opens]
  repeat' split at hl
  all_goals cases hl
  all_goals simp only [UInt8.reduceToNat, true_and] at *
  all_goals omega

theorem Opens.exists_lead? (h : Opens b b₁ more v) :
    ∃ l, lead? b = some l ∧ ¬ (b₁ < l.lo ∨ l.hi < b₁) ∧ l.more = more ∧
      l.bits * 64 + low6 b₁ = v := by
  obtain ⟨h₁, h⟩ := h
  simp only [lead?, UInt8.lt_iff_toNat_lt, UInt8.le_iff_toNat_le, ← UInt8.toNat_inj, low6]
  rcases h with h | h | h
  all_goals
    repeat' split
    all_goals simp only [UInt8.reduceToNat, Option.some.injEq, exists_eq_left'] at *
    all_goals omega

theorem Opens.not_ascii (h : Opens b b₁ more v) : 0x80 ≤ b ∧ 0x80 ≤ b₁ := by
  simp only [Opens, UInt8.le_iff_toNat_le, UInt8.reduceToNat] at *
  omega

end

theorem spells_encode (c : Char) : Spells (String.utf8EncodeChar c) c := by
  have hvalid : c.toNat < 0xD800 ∨ 0xDFFF < c.toNat ∧ c.toNat < 0x110000 := c.valid
  have hnumber : c.val.toNat = c.toNat := rfl
  rw [String.utf8EncodeChar, hnumber]
  split
  · exact .one (by simp [UInt8.lt_iff_toNat_lt]; omega) (by simp; omega)
  · split
    · exact .two (by simp [Opens]; omega)
    · split
      · exact .three (by simp [Opens]; omega) (by simp; omega)
      · exact .four (by simp [Opens]; omega) (by simp; omega) (by simp; omega)

/-- A character is spelled by its bytes and no others. -/
theorem spells_iff {bs : Bytes} {c : Char} : Spells bs c ↔ String.utf8EncodeChar c = bs := by
  refine ⟨fun h => ?_, fun h => h ▸ spells_encode c⟩
  have h' := spells_encode c
  generalize String.utf8EncodeChar c = bs' at h'
  -- The number tells how many bytes there are, and then each of them.
  cases h <;> cases h' <;>
    simp only [Opens, UInt8.lt_iff_toNat_lt, List.cons.injEq, ← UInt8.toNat_inj,
      UInt8.reduceToNat, reduceCtorEq, and_true, and_false] at * <;>
    omega

theorem continuation_iff {b : UInt8} : isContinuation b = true ↔ b.toNat = 0x80 + low6 b := by
  have hb := b.toNat_lt
  simp only [isContinuation, low6, Bool.and_eq_true, decide_eq_true_eq, UInt8.le_iff_toNat_le,
    UInt8.reduceToNat]
  omega

theorem toNat_ofNat {n : Nat} (h : n.isValidChar) : (Char.ofNat n).toNat = n := by
  rw [Char.ofNat, dif_pos h]
  rfl

theorem toNat_ofNat_ascii {a : UInt8} (ha : a < 0x80) : (Char.ofNat a.toNat).toNat = a.toNat :=
  toNat_ofNat (.inl (Nat.lt_trans ha (by decide)))

/-- A character is one byte of its number, or no byte of ASCII is in it. -/
theorem Spells.ascii_or {bs : Bytes} {c : Char} (h : Spells bs c) :
    (∃ b, bs = [b] ∧ b.toNat = c.toNat) ∨ 0x80 ≤ c.toNat ∧ ∀ b ∈ bs, 0x80 ≤ b := by
  have hlate {b : UInt8} {n : Nat} (hb : b.toNat = 0x80 + n) : 0x80 ≤ b := by
    rw [UInt8.le_iff_toNat_le, hb]
    exact Nat.le_add_right _ _
  cases h with
  | one hb hc => exact .inl ⟨_, rfl, hc⟩
  | two h =>
    refine .inr ⟨?_, by simpa using h.not_ascii⟩
    simp only [Opens] at h
    omega
  | three h h₂ =>
    refine .inr ⟨?_, by simpa using ⟨h.not_ascii.1, h.not_ascii.2, hlate h₂⟩⟩
    simp only [Opens] at h
    omega
  | four h h₂ h₃ =>
    refine .inr ⟨?_, by simpa using ⟨h.not_ascii.1, h.not_ascii.2, hlate h₂, hlate h₃⟩⟩
    simp only [Opens] at h
    omega

theorem Spells.mem_iff {bs : Bytes} {c : Char} (h : Spells bs c) {a : UInt8} (ha : a < 0x80) :
    Char.ofNat a.toNat = c ↔ a ∈ bs := by
  have hnumber : a.toNat < 0x80 := ha
  rw [← Char.toNat_inj, toNat_ofNat_ascii ha]
  rcases h.ascii_or with ⟨b, rfl, hb⟩ | ⟨hc, hbs⟩
  · rw [List.mem_singleton, ← hb, UInt8.toNat_inj]
  · exact iff_of_false (by omega) fun hmem => UInt8.not_lt.mpr (hbs a hmem) ha

section

variable {b b₁ b₂ b₃ : UInt8} {v : Nat}

theorem spells_ofNat_ascii (hb : b < 0x80) : Spells [b] (Char.ofNat b.toNat) :=
  .one hb (toNat_ofNat_ascii hb).symm

theorem Opens.spells_two (h : Opens b b₁ 1 v) : Spells [b, b₁] (Char.ofNat v) := by
  refine .two ?_
  rwa [toNat_ofNat (by simp only [Opens, Nat.isValidChar] at *; omega)]

theorem Opens.spells_three (h : Opens b b₁ 2 v) (h₂ : isContinuation b₂ = true) :
    Spells [b, b₁, b₂] (Char.ofNat (v * 64 + low6 b₂)) := by
  have hlow₂ : low6 b₂ < 64 := Nat.mod_lt _ (by decide)
  have hvalid : (v * 64 + low6 b₂).isValidChar := by
    simp only [Opens, Nat.isValidChar] at *
    omega
  rw [continuation_iff] at h₂
  refine .three ?_ ?_
  · rwa [toNat_ofNat hvalid, show (v * 64 + low6 b₂) / 64 = v by omega]
  · rw [toNat_ofNat hvalid]
    omega

theorem Opens.spells_four (h : Opens b b₁ 3 v) (h₂ : isContinuation b₂ = true)
    (h₃ : isContinuation b₃ = true) :
    Spells [b, b₁, b₂, b₃] (Char.ofNat ((v * 64 + low6 b₂) * 64 + low6 b₃)) := by
  have hlow₂ : low6 b₂ < 64 := Nat.mod_lt _ (by decide)
  have hlow₃ : low6 b₃ < 64 := Nat.mod_lt _ (by decide)
  have hvalid : ((v * 64 + low6 b₂) * 64 + low6 b₃).isValidChar := by
    simp only [Opens, Nat.isValidChar] at *
    omega
  rw [continuation_iff] at h₂ h₃
  refine .four ?_ ?_ ?_
  · rwa [toNat_ofNat hvalid, show ((v * 64 + low6 b₂) * 64 + low6 b₃) / 64 / 64 = v by omega]
  · rw [toNat_ofNat hvalid]
    omega
  · rw [toNat_ofNat hvalid]
    omega

theorem Opens.more_eq {more : Nat} (h : Opens b b₁ more v) (h₁ : more ≠ 1) (h₂ : more ≠ 2) :
    more = 3 := by
  simp only [Opens] at h
  omega

end

/-! ## The bytes of a fault -/

/-- Bytes that begin a character, or are none that could, and cannot go on
with what follows. -/
inductive Faults : Bytes → Bytes → Prop where
  | first {b : UInt8} {rest : Bytes} (hb : ¬ b < 0x80) (hl : lead? b = none) : Faults [b] rest
  | second {b : UInt8} {l : Lead} {rest : Bytes} (hb : ¬ b < 0x80) (hl : lead? b = some l)
      (hrest : ∀ x ∈ rest.head?, x < l.lo ∨ l.hi < x) : Faults [b] rest
  | third {b b₁ : UInt8} {l : Lead} {rest : Bytes} (hb : ¬ b < 0x80) (hl : lead? b = some l)
      (h₁ : ¬ (b₁ < l.lo ∨ l.hi < b₁)) (hmore : l.more ≠ 1)
      (hrest : ∀ x ∈ rest.head?, isContinuation x = false) : Faults [b, b₁] rest
  | fourth {b b₁ b₂ : UInt8} {l : Lead} {rest : Bytes} (hb : ¬ b < 0x80) (hl : lead? b = some l)
      (h₁ : ¬ (b₁ < l.lo ∨ l.hi < b₁)) (hmore : l.more ≠ 1) (h₂ : isContinuation b₂ = true)
      (hmore₂ : l.more ≠ 2) (hrest : ∀ x ∈ rest.head?, isContinuation x = false) :
      Faults [b, b₁, b₂] rest

theorem lead?_lo {b : UInt8} {l : Lead} (h : lead? b = some l) : l.lo.toNat ≥ 0x80 := by
  unfold lead? at h
  repeat' split at h
  all_goals cases h
  all_goals simp

theorem isContinuation_of_ascii {a : UInt8} (ha : a < 0x80) : isContinuation a = false := by
  rw [UInt8.lt_iff_toNat_lt] at ha
  rw [← Bool.not_eq_true, continuation_iff]
  exact fun h => by simp at ha; omega

/-- A byte of ASCII goes on nothing. -/
theorem Faults.append_ascii {bs rest : Bytes} (h : Faults bs rest) {a : UInt8} (ha : a < 0x80)
    (more : Bytes) : Faults bs (rest ++ a :: more) := by
  have hhead {x : UInt8} (hx : x ∈ (rest ++ a :: more).head?) : x ∈ rest.head? ∨ x = a := by
    cases rest with
    | nil => exact .inr (Option.some.inj hx).symm
    | cons y rest => exact .inl hx
  have hplain (hrest : ∀ x ∈ rest.head?, isContinuation x = false) :
      ∀ x ∈ (rest ++ a :: more).head?, isContinuation x = false := by
    intro x hx
    rcases hhead hx with hx | rfl
    · exact hrest x hx
    · exact isContinuation_of_ascii ha
  cases h with
  | first hb hl => exact .first hb hl
  | second hb hl hrest =>
    refine .second hb hl fun x hx => ?_
    rcases hhead hx with hx | rfl
    · exact hrest x hx
    · exact .inl (Nat.lt_of_lt_of_le ha (lead?_lo hl))
  | third hb hl h₁ hmore hrest => exact .third hb hl h₁ hmore (hplain hrest)
  | fourth hb hl h₁ hmore h₂ hmore₂ hrest => exact .fourth hb hl h₁ hmore h₂ hmore₂ (hplain hrest)

/-- No byte of ASCII is in a fault. -/
theorem Faults.not_ascii {bs rest : Bytes} (h : Faults bs rest) : ∀ b ∈ bs, 0x80 ≤ b := by
  have hsecond {b b₁ : UInt8} {l : Lead} (hl : lead? b = some l)
      (h₁ : ¬ (b₁ < l.lo ∨ l.hi < b₁)) : 0x80 ≤ b₁ := (opens_of_lead? hl h₁).not_ascii.2
  have hthird {b₂ : UInt8} (h₂ : isContinuation b₂ = true) : 0x80 ≤ b₂ :=
    UInt8.not_lt.mp fun ha => Bool.false_ne_true ((isContinuation_of_ascii ha).symm.trans h₂)
  cases h with
  | first hb _ => simpa using hb
  | second hb _ _ => simpa using hb
  | third hb hl h₁ _ _ => simpa using ⟨UInt8.not_lt.mp hb, hsecond hl h₁⟩
  | fourth hb hl h₁ _ h₂ _ _ => simpa using ⟨UInt8.not_lt.mp hb, hsecond hl h₁, hthird h₂⟩

/-! ## What a scan finds -/

/-- Bytes as characters and faults, in order. -/
inductive Scans : Bytes → List (Option Char) → Prop where
  | nil : Scans [] []
  | char {bs rest : Bytes} {c : Char} {found : List (Option Char)} (h : Spells bs c)
      (hrest : Scans rest found) : Scans (bs ++ rest) (some c :: found)
  | fault {bs rest : Bytes} {found : List (Option Char)} (h : Faults bs rest)
      (hrest : Scans rest found) : Scans (bs ++ rest) (none :: found)

/-- A character is read off the bytes that spell it, whatever follows. -/
theorem scan_append_of_spells {bs : Bytes} {c : Char} (h : Spells bs c) (rest : Bytes) :
    scan (bs ++ rest) = some c :: scan rest := by
  have hnext {b : UInt8} {n : Nat} (hb : b.toNat = 0x80 + n % 64) :
      isContinuation b = true ∧ low6 b = n % 64 := by
    rw [continuation_iff, low6]
    omega
  cases h with
  | one hb hc => rw [List.singleton_append, scan, if_pos hb, hc, Char.ofNat_toNat]
  | two h =>
    obtain ⟨l, hl, h₁, hmore, hv⟩ := h.exists_lead?
    rw [List.cons_append, List.singleton_append, scan, if_neg (UInt8.not_lt.mpr h.not_ascii.1)]
    simp [hl, h₁, hmore, hv]
  | three h h₂ =>
    obtain ⟨l, hl, h₁, hmore, hv⟩ := h.exists_lead?
    obtain ⟨hc₂, hlow₂⟩ := hnext h₂
    rw [List.cons_append, List.cons_append, List.singleton_append, scan,
      if_neg (UInt8.not_lt.mpr h.not_ascii.1)]
    simp [hl, h₁, hmore, hv, hc₂, hlow₂, Nat.div_add_mod']
  | four h h₂ h₃ =>
    obtain ⟨l, hl, h₁, hmore, hv⟩ := h.exists_lead?
    obtain ⟨hc₂, hlow₂⟩ := hnext h₂
    obtain ⟨hc₃, hlow₃⟩ := hnext h₃
    rw [List.cons_append, List.cons_append, List.cons_append, List.singleton_append, scan,
      if_neg (UInt8.not_lt.mpr h.not_ascii.1)]
    simp [hl, h₁, hmore, hv, hc₂, hlow₂, hc₃, hlow₃, Nat.div_add_mod']

/-- A fault is found in front of what it cannot go on with. -/
theorem scan_append_of_faults {bs rest : Bytes} (h : Faults bs rest) :
    scan (bs ++ rest) = none :: scan rest := by
  cases h with
  | first hb hl => rw [List.singleton_append, scan, if_neg hb, hl]
  | second hb hl hrest =>
    rw [List.singleton_append, scan, if_neg hb, hl]
    cases rest with
    | nil => rfl
    | cons x rest => simp [hrest x rfl]
  | third hb hl h₁ hmore hrest =>
    rw [List.cons_append, List.singleton_append, scan, if_neg hb, hl]
    cases rest with
    | nil => simp [h₁, hmore, scan]
    | cons x rest => simp [h₁, hmore, hrest x rfl]
  | fourth hb hl h₁ hmore h₂ hmore₂ hrest =>
    rw [List.cons_append, List.cons_append, List.singleton_append, scan, if_neg hb, hl]
    cases rest with
    | nil => simp [h₁, hmore, h₂, hmore₂, scan]
    | cons x rest => simp [h₁, hmore, h₂, hmore₂, hrest x rfl]

theorem scans_scan (bs : Bytes) : Scans bs (scan bs) := by
  have hrange {b₁ : UInt8} {l : Lead}
      (h : ¬ (decide (b₁ < l.lo) || decide (l.hi < b₁)) = true) :
      ¬ (b₁ < l.lo ∨ l.hi < b₁) := by simpa using h
  fun_induction scan bs with
  | case1 => exact .nil
  | case2 b rest hb ih => exact .char (spells_ofNat_ascii hb) ih
  | case3 b rest hb hl ih => exact .fault (.first hb hl) ih
  | case4 b hb l hl => exact .fault (.second hb hl (by simp)) .nil
  | case5 b hb l hl b₁ rest h₁ ih => exact .fault (.second hb hl (by simpa using h₁)) ih
  | case6 b hb l hl b₁ rest h₁ hmore ih =>
    exact .char (hmore ▸ opens_of_lead? hl (hrange h₁)).spells_two ih
  | case7 b hb l hl b₁ h₁ hmore =>
    exact .fault (.third hb hl (hrange h₁) hmore (by simp)) .nil
  | case8 b hb l hl b₁ h₁ hmore b₂ rest h₂ ih =>
    exact .fault (.third hb hl (hrange h₁) hmore (by simpa using h₂)) ih
  | case9 b hb l hl b₁ h₁ hmore b₂ rest h₂ hmore₂ ih =>
    have hopens := opens_of_lead? hl (hrange h₁)
    exact .char ((hmore₂ ▸ hopens).spells_three (by simpa using h₂)) ih
  | case10 b hb l hl b₁ h₁ hmore b₂ h₂ hmore₂ =>
    exact .fault (.fourth hb hl (hrange h₁) hmore (by simpa using h₂) hmore₂ (by simp)) .nil
  | case11 b hb l hl b₁ h₁ hmore b₂ h₂ hmore₂ b₃ rest h₃ ih =>
    exact .fault (.fourth hb hl (hrange h₁) hmore (by simpa using h₂) hmore₂ (by simpa using h₃)) ih
  | case12 b hb l hl b₁ h₁ hmore b₂ h₂ hmore₂ b₃ rest h₃ ih =>
    have hopens := opens_of_lead? hl (hrange h₁)
    rw [hopens.more_eq hmore hmore₂] at hopens
    exact .char (hopens.spells_four (by simpa using h₂) (by simpa using h₃)) ih

/-- The scan finds just that. -/
theorem scans_iff {bs : Bytes} {found : List (Option Char)} :
    Scans bs found ↔ scan bs = found := by
  refine ⟨fun h => ?_, fun h => h ▸ scans_scan bs⟩
  induction h with
  | nil => rfl
  | char h _ ih => rw [scan_append_of_spells h, ih]
  | fault h _ ih => rw [scan_append_of_faults h, ih]

/-! ## Text and back -/

/-- What is read without a fault is a text, and the bytes are its own. -/
theorem scan_eq_map_iff {bs : Bytes} {t : Text} : scan bs = t.map some ↔ encode t = bs := by
  constructor
  · intro h
    have hscans := scans_iff.mpr h
    clear h
    induction t generalizing bs with
    | nil =>
      cases hscans
      rfl
    | cons c t ih =>
      cases hscans with
      | char hspells hrest => rw [encode, List.flatMap_cons, spells_iff.mp hspells, ← ih hrest]; rfl
  · rintro rfl
    induction t with
    | nil => rfl
    | cons c t ih =>
      rw [encode, List.flatMap_cons, scan_append_of_spells (spells_encode c), List.map_cons]
      exact congrArg _ ih

theorem scan_encode (t : Text) : scan (encode t) = t.map some := scan_eq_map_iff.mpr rfl

theorem mapM_id_eq_some_iff {α : Type} {found : List (Option α)} {t : List α} :
    found.mapM id = some t ↔ found = t.map some := by
  induction found generalizing t with
  | nil => cases t <;> simp
  | cons x found ih =>
    cases x with
    | none => cases t <;> simp
    | some c => cases t <;> simp [Option.bind_eq_some_iff, ih, and_comm]

/-- Bytes are refused unless they are those of a text. -/
theorem decode?_eq_some_iff {bs : Bytes} {t : Text} : decode? bs = some t ↔ encode t = bs :=
  mapM_id_eq_some_iff.trans scan_eq_map_iff

theorem decodeLossy_encode (t : Text) : decodeLossy (encode t) = t := by
  simp [decodeLossy, scan_encode, Function.comp_def]

theorem encode_injective : Function.Injective encode := fun t u h => by
  rw [← decodeLossy_encode t, h, decodeLossy_encode]

theorem encode_append (t u : Text) : encode (t ++ u) = encode t ++ encode u :=
  List.flatMap_append

theorem encode_eq_nil_iff {t : Text} : encode t = [] ↔ t = [] := encode_injective.eq_iff' rfl

/-- Nothing is read only where there is nothing to read. -/
theorem decodeLossy_eq_nil_iff {bs : Bytes} : decodeLossy bs = [] ↔ bs = [] := by
  constructor
  · intro h
    exact ((scan_eq_map_iff (t := [])).mp (List.map_eq_nil_iff.mp h)).symm
  · rintro rfl
    rfl

/-! ## Bytes of ASCII -/

section

variable {a : UInt8} (ha : a < 0x80)
include ha

/-- A byte of ASCII ends whatever came before it, and is itself. -/
theorem scan_append_ascii (front rest : Bytes) :
    scan (front ++ a :: rest) = scan front ++ some (Char.ofNat a.toNat) :: scan rest := by
  have hfront := scans_scan front
  generalize scan front = found at hfront ⊢
  induction hfront with
  | nil => rw [List.nil_append, scan, if_pos ha, List.nil_append]
  | char h _ ih => rw [List.append_assoc, scan_append_of_spells h, ih, List.cons_append]
  | fault h _ ih =>
    rw [List.append_assoc, scan_append_of_faults (h.append_ascii ha rest), ih, List.cons_append]

theorem decodeLossy_append_ascii (front rest : Bytes) :
    decodeLossy (front ++ a :: rest) =
      decodeLossy front ++ Char.ofNat a.toNat :: decodeLossy rest := by
  simp [decodeLossy, scan_append_ascii ha]

/-- Bytes with a byte of ASCII among them are those of a text if and only if
the bytes in front of it and those behind it are. -/
theorem exists_encode_append_ascii_iff {front rest : Bytes} :
    (∃ t, encode t = front ++ a :: rest) ↔ (∃ t, encode t = front) ∧ ∃ t, encode t = rest := by
  simp only [← scan_eq_map_iff, scan_append_ascii ha]
  constructor
  · rintro ⟨t, ht⟩
    obtain ⟨t₁, t₂, -, h₁, h₂⟩ := List.map_eq_append_iff.mp ht.symm
    obtain ⟨c, t₃, -, -, h₃⟩ := List.map_eq_cons_iff.mp h₂
    exact ⟨⟨t₁, h₁.symm⟩, t₃, h₃.symm⟩
  · rintro ⟨⟨t₁, h₁⟩, t₃, h₃⟩
    exact ⟨t₁ ++ Char.ofNat a.toNat :: t₃, by rw [h₁, h₃, List.map_append, List.map_cons]⟩

theorem Scans.mem_iff {bs : Bytes} {found : List (Option Char)} (h : Scans bs found) :
    some (Char.ofNat a.toNat) ∈ found ↔ a ∈ bs := by
  induction h with
  | nil => simp
  | char h _ ih =>
    rw [List.mem_cons, List.mem_append, ih, Option.some.injEq, h.mem_iff ha]
  | fault h _ ih =>
    rw [List.mem_cons, List.mem_append, ih]
    exact or_congr_left (iff_of_false nofun fun hmem => UInt8.not_lt.mpr (h.not_ascii a hmem) ha)

/-- A byte of ASCII is in the bytes exactly if its character is read. -/
theorem mem_decodeLossy_iff {bs : Bytes} : Char.ofNat a.toNat ∈ decodeLossy bs ↔ a ∈ bs := by
  rw [← (scans_scan bs).mem_iff ha, decodeLossy, List.mem_map]
  constructor
  · rintro ⟨found, hmem, hfound⟩
    cases found with
    | some c => exact hfound ▸ hmem
    | none =>
      have hnumber := congrArg Char.toNat hfound
      rw [toNat_ofNat_ascii ha, show (none.getD '\uFFFD').toNat = 0xFFFD from rfl] at hnumber
      exact absurd a.toNat_lt (by omega)
  · exact fun hmem => ⟨_, hmem, rfl⟩

theorem mem_encode_iff {t : Text} : a ∈ encode t ↔ Char.ofNat a.toNat ∈ t := by
  rw [← mem_decodeLossy_iff ha, decodeLossy_encode]

/-- Text ends with a character of ASCII if and only if the bytes end with its byte. -/
theorem getLast?_decodeLossy_iff {bs : Bytes} :
    (decodeLossy bs).getLast? = some (Char.ofNat a.toNat) ↔ bs.getLast? = some a := by
  constructor
  · intro hlast
    have hmem : a ∈ bs.reverse :=
      List.mem_reverse.mpr ((mem_decodeLossy_iff ha).mp (List.mem_of_getLast? hlast))
    obtain ⟨back, front, hbs, hback⟩ := List.eq_append_cons_of_mem hmem
    obtain rfl : bs = front.reverse ++ a :: back.reverse := by
      simpa using congrArg List.reverse hbs
    rw [decodeLossy_append_ascii ha, List.getLast?_append] at hlast
    cases hlater : decodeLossy back.reverse with
    | nil =>
      rw [decodeLossy_eq_nil_iff.mp hlater]
      exact List.getLast?_concat
    | cons c later =>
      -- Behind the last such byte, no such character is read.
      rw [hlater, List.getLast?_cons_cons, List.getLast?_cons, Option.some_or,
        ← List.getLast?_cons, ← hlater] at hlast
      have hlate := (mem_decodeLossy_iff ha).mp (List.mem_of_getLast? hlast)
      exact absurd (List.mem_reverse.mp hlate) hback
  · intro hlast
    obtain ⟨front, rfl⟩ := List.getLast?_eq_some_iff.mp hlast
    rw [decodeLossy_append_ascii ha]
    exact List.getLast?_concat

end

end Utf8

end FileShell

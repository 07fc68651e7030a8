/-
FileShell.Text.Cluster — text as user-perceived characters.

A cluster is what one press of the backspace key takes away: a letter
with its marks, a flag of two regional letters, a Hangul syllable, a
chain of pictographs, a conjunct of consonants. The scan walks the text
once and remembers of the cluster so far only what the rules ask for
(`Seen`); `Seen.continues` is the rule table.
-/
import FileShell.Text.Cluster.Classes

namespace FileShell

namespace Cluster

/-! ## The rules -/

/-- What the rules ask about the cluster read so far. -/
structure Seen where
  /-- The class of its last character. -/
  last : Class
  /-- Whether it ends in a regional letter that still lacks its partner. -/
  lone : Bool
  /-- Whether it ends in a pictograph and marks on it. -/
  picture : Bool
  /-- Whether it ends in a pictograph, marks on it and a joiner. -/
  chained : Bool
  /-- Whether it ends in a consonant, extenders and viramas. -/
  consonant : Bool
  /-- Whether there is a virama after that consonant. -/
  virama : Bool

/-- The cluster that consists of one character so far. -/
def Seen.first (c : Char) : Seen :=
  let k := Class.ofChar c
  { last := k
    lone := decide (k = .regional)
    picture := decide (k = .pictograph)
    chained := false
    consonant := decide (k = .conjunct)
    virama := false }

/-- The cluster with one more character. -/
def Seen.add (s : Seen) (c : Char) : Seen :=
  let k := Class.ofChar c
  { last := k
    lone := decide (k = .regional) && !(decide (s.last = .regional) && s.lone)
    picture := decide (k = .pictograph) || (s.picture && decide (k = .mark))
    chained := s.picture && decide (k = .joiner)
    consonant := decide (k = .conjunct) ||
      (s.consonant && (isVirama c || isConjunctExtender c))
    virama := k != .conjunct && s.consonant &&
      (isVirama c || (s.virama && isConjunctExtender c)) }

/-- Whether a character of class `k` belongs to the cluster read so far. -/
def Seen.continues (s : Seen) (k : Class) : Bool :=
  match s.last, k with
  | .carriageReturn, .lineFeed => true
  | .carriageReturn, _ | .lineFeed, _ | .control, _ => false
  | _, .carriageReturn | _, .lineFeed | _, .control => false
  | _, .mark | _, .joiner | _, .spacing => true
  | .prepend, _ => true
  | .leading, .leading | .leading, .vowel => true
  | .leading, .syllableOpen | .leading, .syllableClosed => true
  | .syllableOpen, .vowel | .syllableOpen, .trailing => true
  | .vowel, .vowel | .vowel, .trailing => true
  | .syllableClosed, .trailing | .trailing, .trailing => true
  | .regional, .regional => s.lone
  | _, .pictograph => s.chained
  | _, .conjunct => s.virama
  | _, _ => false

/-! ## The scan -/

/-- The clusters of a text whose first characters, newest first, are
already read and have been seen as `s`. -/
def collect (newest : Text) (s : Seen) : Text → List Text
  | [] => [newest.reverse]
  | c :: rest =>
    if s.continues (Class.ofChar c) then collect (c :: newest) (s.add c) rest
    else newest.reverse :: collect [c] (Seen.first c) rest

/-- The clusters of a text, in order. -/
def clusters : Text → List Text
  | [] => []
  | c :: rest => collect [c] (Seen.first c) rest

theorem flatten_collect (newest : Text) (s : Seen) (t : Text) :
    (collect newest s t).flatten = newest.reverse ++ t := by
  induction t generalizing newest s with
  | nil => simp [collect]
  | cons c rest ih =>
    by_cases h : s.continues (Class.ofChar c) = true
    · simp [collect, h, ih]
    · simp [collect, h, ih]

/-- Cutting into clusters loses nothing. -/
theorem flatten_clusters (t : Text) : (clusters t).flatten = t := by
  cases t with
  | nil => rfl
  | cons c rest => simp [clusters, flatten_collect]

end Cluster

end FileShell

import Treewalk.Text.Cluster.Classes

/-! # Clusters

A cluster is what a reader takes for one character: a letter with its marks, a syllable, a flag, a
picture put together from others. A text falls into clusters at the places where two neighbours do
not belong together. `joins` decides this from the class of the character behind the place and from
the characters in front of it, by the rules of Unicode for extended clusters; `clusters` cuts a text
at all such places.

`flatten_clusters` says that nothing is lost or added, and `ne_nil_of_mem_clusters` that no cluster
is empty.

Only typed text is cut into clusters. The rules stand for those of a third-party part, the
segmentation that the line editor uses, so they are here to be run, and nothing else is proved about
them. -/

namespace Treewalk.Text

/-- What decides about a character whether it belongs to its neighbours. -/
inductive BreakClass where
  | carriageReturn | lineFeed | control
  | extender | joiner | spacing | prepended
  | leading | vowel | trailing | openSyllable | closedSyllable
  | regional | consonant | pictograph | other
deriving DecidableEq, Repr

/-- The class of a character. Korean syllables are numbered with the trailing consonant last, of
which there are twenty-eight, none included. -/
def breakClass (c : Char) : BreakClass :=
  let n := c.toNat
  if n = 0x0D then .carriageReturn
  else if n = 0x0A then .lineFeed
  else if inRanges controlRanges n then .control
  else if n = 0x200D then .joiner
  else if inRanges extendRanges n then .extender
  else if inRanges spacingRanges n then .spacing
  else if inRanges prependRanges n then .prepended
  else if inRanges leadingRanges n then .leading
  else if inRanges vowelRanges n then .vowel
  else if inRanges trailingRanges n then .trailing
  else if 0xAC00 ≤ n ∧ n ≤ 0xD7A3 then
    if (n - 0xAC00) % 28 = 0 then .openSyllable else .closedSyllable
  else if 0x1F1E6 ≤ n ∧ n ≤ 0x1F1FF then .regional
  else if inRanges consonantRanges n then .consonant
  else if inRanges pictographRanges n then .pictograph
  else .other

/-- Is this a linker? -/
def isLinker (c : Char) : Bool := inRanges linkerRanges c.toNat

/-- May this stand between two consonants that a linker fuses? The mark that keeps them apart may
    not. -/
def isFusing (c : Char) : Bool :=
  (breakClass c == .extender || breakClass c == .joiner) && c.toNat != 0x200C

/-- Is there a consonant in front of a place, and a linker among the marks between them? As for all
that stands in front of a place, the nearest character comes first. -/
def fuses (before : List Char) : Bool :=
  (before.takeWhile isFusing).any isLinker &&
    ((before.dropWhile isFusing).head?.map breakClass == some .consonant)

/-- Is there a pictograph in front of a place, up to extenders and a joiner behind them? -/
def joinsPictographs : List Char → Bool
  | [] => false
  | joiner :: before =>
    breakClass joiner == .joiner &&
      ((before.dropWhile (breakClass · == .extender)).head?.map breakClass == some .pictograph)

/-- Is there half a flag in front of a place? Two regional indicators make a flag. -/
def halvesFlag (before : List Char) : Bool :=
  (before.takeWhile (breakClass · == .regional)).length % 2 == 1

/-- Does a character belong to what is in front of it? -/
def joins (before : List Char) (next : Char) : Bool :=
  match before with
  | [] => false
  | previous :: _ =>
    match breakClass previous, breakClass next with
    | .carriageReturn, .lineFeed => true
    -- Controls stand alone.
    | .carriageReturn, _ => false
    | .lineFeed, _ => false
    | .control, _ => false
    | _, .carriageReturn => false
    | _, .lineFeed => false
    | _, .control => false
    -- Korean syllables go from leading consonants over vowels to trailing consonants.
    | .leading, .leading => true
    | .leading, .vowel => true
    | .leading, .openSyllable => true
    | .leading, .closedSyllable => true
    | .openSyllable, .vowel => true
    | .openSyllable, .trailing => true
    | .vowel, .vowel => true
    | .vowel, .trailing => true
    | .closedSyllable, .trailing => true
    | .trailing, .trailing => true
    -- Marks belong to what is in front of them, and some characters to what is behind them.
    | _, .extender => true
    | _, .joiner => true
    | _, .spacing => true
    | .prepended, _ => true
    | _, .consonant => fuses before
    | _, .pictograph => joinsPictographs before
    | .regional, .regional => halvesFlag before
    | _, _ => false

/-- The clusters of a text behind the characters `before`, the nearest of which, `current`, make up
a cluster that may go on. Both have the nearest character first. -/
def clustersBehind (before current : List Char) : List Char → List (List Char)
  | [] => if current.isEmpty then [] else [current.reverse]
  | c :: rest =>
    if current.isEmpty || joins before c then clustersBehind (c :: before) (c :: current) rest
    else current.reverse :: clustersBehind (c :: before) [c] rest

/-- The clusters of a text. -/
def clusters (text : List Char) : List (List Char) := clustersBehind [] [] text

/-- The clusters behind a point make up the open one and the text. -/
theorem flatten_clustersBehind (before current text : List Char) :
    (clustersBehind before current text).flatten = current.reverse ++ text := by
  induction text generalizing before current with
  | nil =>
    rw [clustersBehind]
    split
    · next empty => rw [List.isEmpty_iff.1 empty]; rfl
    · simp
  -- The open cluster takes the character in, or ends and makes way for one that starts with it.
  | cons c rest ih =>
    rw [clustersBehind]
    split
    · rw [ih, List.reverse_cons, List.append_assoc]; rfl
    · rw [List.flatten_cons, ih]; rfl

/-- The clusters of a text tile it. -/
theorem flatten_clusters (text : List Char) : (clusters text).flatten = text :=
  flatten_clustersBehind [] [] text

/-- No cluster is empty. -/
theorem ne_nil_of_mem_clustersBehind {before current text cluster : List Char}
    (h : cluster ∈ clustersBehind before current text) : cluster ≠ [] := by
  induction text generalizing before current with
  | nil =>
    rw [clustersBehind] at h
    split at h
    · cases h
    · -- A cluster is closed only where there is something in it.
      next some =>
      rw [List.mem_singleton.1 h]
      simpa using some
  | cons c rest ih =>
    rw [clustersBehind] at h
    split at h
    · exact ih h
    · next some =>
      rcases List.mem_cons.1 h with rfl | h
      · intro empty
        simp [List.reverse_eq_nil_iff.1 empty] at some
      · exact ih h

/-- No cluster is empty. -/
theorem ne_nil_of_mem_clusters {text cluster : List Char} (h : cluster ∈ clusters text) :
    cluster ≠ [] :=
  ne_nil_of_mem_clustersBehind h

end Treewalk.Text

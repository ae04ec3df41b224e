import Interlock.Text.Property

/-!
# Clusters

A cluster is what a reader takes for one character: a letter with its marks, a flag of two
letters, a family of joined pictures, a syllable. A text is cut between two characters unless a
rule keeps them together, and the rules look only at the characters before the cut and at the one
after it. Nothing is lost: the clusters in order are the text.
-/

namespace Interlock.Text

/-- The part that a character plays where a text is cut. -/
inductive ClusterClass
  | carriageReturn
  | lineFeed
  | control
  | extend
  | joiner
  | spacing
  | leading
  | flagLetter
  /-- The parts of a Korean syllable, and syllables without and with an end. -/
  | onset
  | vowel
  | coda
  | openSyllable
  | closedSyllable
  | picture
  | other
  deriving DecidableEq, Repr, Inhabited

/-- The class of a character. -/
def ClusterClass.ofChar (c : Char) : ClusterClass :=
  let n := c.toNat
  if n = 0x0D then .carriageReturn
  else if n = 0x0A then .lineFeed
  else if n < 0x20 ∨ n = 0x7F then .control
  else if isAscii c then .other
  else if c = zeroWidthJoiner then .joiner
  else if isExtend c then .extend
  else if inRanges controlRanges c then .control
  else if inRanges spacingRanges c then .spacing
  else if inRanges leadingRanges c then .leading
  else if isFlagLetter c then .flagLetter
  else if inRanges [(0x1100, 0x115F), (0xA960, 0xA97C)] c then .onset
  else if inRanges [(0x1160, 0x11A7), (0xD7B0, 0xD7C6)] c then .vowel
  else if inRanges [(0x11A8, 0x11FF), (0xD7CB, 0xD7FB)] c then .coda
  else if 0xAC00 ≤ n ∧ n ≤ 0xD7A3 then
    if (n - 0xAC00) % 28 = 0 then .openSyllable else .closedSyllable
  else if isPicture c then .picture
  else .other

/-- How far the characters before a cut have come towards a joined pair of consonants. -/
inductive Conjunct
  | none
  | consonant
  | linked
  deriving DecidableEq, Repr, Inhabited

/-- What the rules know of the characters before a cut. -/
structure ClusterContext where
  /-- The class of the last character. -/
  last : ClusterClass
  /-- A picture stands at the end, perhaps with marks. -/
  picture : Bool
  /-- A joiner follows such a picture. -/
  joined : Bool
  /-- The flag letters at the end are odd in number. -/
  oddFlag : Bool
  conjunct : Conjunct
  deriving DecidableEq, Repr, Inhabited

namespace ClusterContext

/-- Nothing before. -/
def fresh : ClusterContext := ⟨.control, false, false, false, .none⟩

/-- One character more. -/
def next (x : ClusterContext) (c : Char) : ClusterContext :=
  let k := ClusterClass.ofChar c
  { last := k
    picture := k == .picture || (k == .extend && x.picture)
    joined := k == .joiner && x.picture
    oddFlag := k == .flagLetter && !x.oddFlag
    conjunct :=
      if isAscii c then .none
      else if isConsonant c then .consonant
      else if isLinker c && x.conjunct != .none then .linked
      else if k == .extend || k == .joiner then x.conjunct
      else .none }

/-- Whether two parts of a Korean syllable stay together. -/
def joinsSyllable : ClusterClass → ClusterClass → Bool
  | .onset, .onset => true
  | .onset, .vowel => true
  | .onset, .openSyllable => true
  | .onset, .closedSyllable => true
  | .openSyllable, .vowel => true
  | .openSyllable, .coda => true
  | .vowel, .vowel => true
  | .vowel, .coda => true
  | .closedSyllable, .coda => true
  | .coda, .coda => true
  | _, _ => false

/-- Whether a character belongs to the cluster before it. -/
def joins (x : ClusterContext) (c : Char) : Bool :=
  match x.last, ClusterClass.ofChar c with
  | .carriageReturn, .lineFeed => true
  | .carriageReturn, _ => false
  | .lineFeed, _ => false
  | .control, _ => false
  | _, .carriageReturn => false
  | _, .lineFeed => false
  | _, .control => false
  | _, .extend => true
  | _, .joiner => true
  | _, .spacing => true
  | .leading, _ => true
  | last, k =>
    joinsSyllable last k || (x.conjunct == .linked && isConsonant c) ||
      (x.joined && k == .picture) || (x.oddFlag && k == .flagLetter)

end ClusterContext

/-- The clusters of a text; `cluster` is the one at hand, backwards. -/
def clustersFrom (x : ClusterContext) (cluster : List Char) : List Char → List (List Char)
  | [] => if cluster.isEmpty then [] else [cluster.reverse]
  | c :: cs =>
    if cluster.isEmpty || x.joins c then clustersFrom (x.next c) (c :: cluster) cs
    else cluster.reverse :: clustersFrom (x.next c) [c] cs

/-- The clusters of a text, in order. -/
def clusters (s : String) : List (List Char) := clustersFrom .fresh [] s.toList

end Interlock.Text

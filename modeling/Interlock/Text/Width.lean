import Interlock.Text.Cluster

/-!
# Columns

How many columns of a screen a cluster takes. Marks and format characters take none, the wide
characters of East Asia and pictures take two, all others one; control characters count one, so
that a screen shows where they are. Pictures that a joiner makes into one picture take the columns
of one.
-/

namespace Interlock.Text

/-- The columns of a character on its own. -/
def charWidth (c : Char) : Nat :=
  let n := c.toNat
  if isAscii c then 1
  else if n = 0x17D8 then 3
  else if n = 0x115F ∨ n = 0x17A4 then 2
  else if n = 0x2D7F then 1
  else if [0x605, 0x70F, 0x890, 0x891, 0x8E2, 0xA8FA].contains n then 0
  else if isExtend c then if isSkinTone c then 2 else 0
  else if inRanges ignorableRanges c then 0
  else if ClusterClass.ofChar c == .vowel || ClusterClass.ofChar c == .coda then 0
  else if isWide c then 2
  else 1

/-- Whether a character with its marks is drawn as a picture. -/
def isDrawn (c : Char) (marks : List Char) : Bool :=
  if isPicture c && isWide c then marks.head? != some plainSelector
  else inRanges plainPictureRanges c &&
    (marks.head? == some pictureSelector ||
      (inRanges tintableRanges c && marks.head?.any isSkinTone))

/-- The columns of the marks of a character; a skin tone on a picture that takes one is not seen
beside it. -/
def marksWidth (c : Char) (marks : List Char) : Nat :=
  let tinted := inRanges tintableRanges c && marks.head?.any isSkinTone
  (if tinted then marks.drop 1 else marks).foldr (fun c n => charWidth c + n) 0

/-- The columns of a character with its marks. -/
def markedWidth : List Char → Nat
  | [] => 0
  | c :: marks =>
    let own := if isDrawn c marks then 2
      else if isPicture c && marks.head? == some plainSelector then 1
      else charWidth c
    own + marksWidth c marks

/-- Whether a character with its marks is drawn as a picture. -/
def isDrawnPart : List Char → Bool
  | [] => false
  | c :: marks => isDrawn c marks

/-- The columns of parts that joiners hold together; of neighbouring pictures only the last
counts. -/
def joinedWidth : List (List Char) → Nat
  | [] => 0
  | [p] => markedWidth p
  | p :: q :: rest =>
    (if isDrawnPart p && isDrawnPart q then 0 else markedWidth p) + joinedWidth (q :: rest)

/-- The parts of a cluster between its joiners. -/
def joinedParts : List Char → List (List Char)
  | [] => [[]]
  | c :: cs =>
    if c = zeroWidthJoiner then [] :: joinedParts cs
    else
      match joinedParts cs with
      | [] => [[c]]
      | p :: rest => (c :: p) :: rest

/-- The columns of a cluster. -/
def clusterWidth : List Char → Nat
  | [c] => charWidth c
  | ['\r', '\n'] => 1
  | cs => joinedWidth (joinedParts cs)

end Interlock.Text

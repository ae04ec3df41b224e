/-!
# Small letters

Capital letters beyond ASCII with their small letters. In most blocks the two lie at a fixed
distance or alternate; the other letters are listed.
-/

namespace Interlock.Text

/-- The code points of a range in which each capital letter stands just before its small letter,
the capitals having the parity of the first code point. -/
def isAlternatingCapital (low high n : Nat) : Bool := low ≤ n && n ≤ high && n % 2 == low % 2

/-- The ranges in which capital and small letters alternate. -/
def alternatingRanges : List (Nat × Nat) :=
  [(0x100, 0x12E), (0x132, 0x136), (0x139, 0x147), (0x14A, 0x176), (0x179, 0x17D),
    (0x1CD, 0x1DB), (0x1DE, 0x1EE), (0x1F8, 0x21E), (0x222, 0x232), (0x370, 0x372), (0x3D8, 0x3EE),
    (0x460, 0x480), (0x48A, 0x4BE), (0x4C1, 0x4CD), (0x4D0, 0x52E), (0x1E00, 0x1E94),
    (0x1EA0, 0x1EFE)]

/-- The ranges of capital letters with the distance to their small letters. -/
def shiftedRanges : List (Nat × Nat × Nat) :=
  [(0x41, 0x5A, 32), (0xC0, 0xD6, 32), (0xD8, 0xDE, 32), (0x388, 0x38A, 37), (0x391, 0x3A1, 32),
    (0x3A3, 0x3AB, 32), (0x400, 0x40F, 80), (0x410, 0x42F, 32), (0x531, 0x556, 48)]

/-- Capital letters that stand alone, with their small letters. -/
def loneCapitals : List (Nat × Nat) :=
  [(0x178, 0xFF), (0x386, 0x3AC), (0x38C, 0x3CC), (0x38E, 0x3CD), (0x38F, 0x3CE), (0x4C0, 0x4CF),
    (0x1E9E, 0xDF), (0x212A, 0x6B), (0x212B, 0xE5)]

/-- A letter in lower case; every other character is left alone. -/
def smallLetter (c : Char) : Char :=
  let n := c.toNat
  match shiftedRanges.find? (fun r => r.1 ≤ n && n ≤ r.2.1) with
  | some r => Char.ofNat (n + r.2.2)
  | none =>
    if alternatingRanges.any (fun r => isAlternatingCapital r.1 r.2 n) then Char.ofNat (n + 1)
    else ((loneCapitals.find? (·.1 == n)).map fun p => Char.ofNat p.2).getD c

/-- A text in lower case. -/
def inSmallLetters (s : String) : String := String.ofList (s.toList.map smallLetter)

end Interlock.Text

import Interlock.Text.Case
import Interlock.Url.Punycode

/-!
# Domain names

The mapping of domain names to ASCII is a table of its own, so everything that reads an address takes
it as a parameter, `Idna`. `Domain.toAscii?` is the part of the table for ASCII, its wide forms, and
letters that are only written small; a name with any other character is refused.
-/

namespace Interlock.Url

/-- The mapping of domain names to ASCII. -/
class Idna where
  /-- The form of a name in ASCII; `none` if no domain has that name. -/
  toAscii? : List Char → Option (List Char)

namespace Domain

/-! ## Characters -/

/-- The ASCII characters that no domain name holds. -/
def isForbidden (c : Char) : Bool :=
  c.toNat ≤ 0x20 || c.toNat == 0x7F || "#%/:<>?@[\\]^|".toList.contains c

/-- The ranges of letters outside ASCII that `toAscii?` knows: Latin, Greek, Cyrillic, Hiragana,
Katakana, Han and Hangul. -/
def knownLetters : List (Nat × Nat) :=
  [(0xDF, 0xF6), (0xF8, 0xFF), (0x3B1, 0x3C9), (0x430, 0x45F), (0x3041, 0x3096), (0x30A1, 0x30FA),
    (0x4E00, 0x9FA5), (0xAC00, 0xD7A3)]

/-- Whether `toAscii?` knows the character with code point `n`. -/
def isKnown (n : Nat) : Bool := n < 0x80 || knownLetters.any fun r => r.1 ≤ n && n ≤ r.2

/-- A wide form or an ideographic full stop as the character of ASCII that it stands for. -/
def narrow (c : Char) : Char :=
  if 0xFF01 ≤ c.toNat ∧ c.toNat ≤ 0xFF5E then Char.ofNat (c.toNat - 0xFEE0)
  else if c.toNat = 0x3002 ∨ c.toNat = 0xFF61 then '.'
  else c

/-- The small letter of `c`, if it is known. -/
def image? (c : Char) : Option Char :=
  (some (Text.smallLetter (narrow c))).filter (isKnown ·.toNat)

/-! ## The form of a name -/

/-- The mark of a label in Punycode. -/
def mark : List Char := ['x', 'n', '-', '-']

/-- A label in ASCII. A label that is in Punycode already has to stand for one that needs it. -/
def labelToAscii? (label : List Char) : Option (List Char) :=
  if label.take 4 = mark then
    match Punycode.decode? (label.drop 4) with
    | none => none
    | some plain =>
      if plain.all (·.toNat < 128) || plain.any (fun c => image? c != some c) then none
      else some label
  else if label.all (·.toNat < 128) then some label
  else some (mark ++ Punycode.encode label)

/-- The form of a name of known characters, label by label. -/
def toAscii? (name : List Char) : Option (List Char) := do
  let mapped ← name.mapM image?
  if mapped.any isForbidden then none
  else
    let parts ← (mapped.splitOn '.').mapM labelToAscii?
    some (['.'].intercalate parts)

end Domain

/-- The mapping that the program runs with. -/
instance : Idna := ⟨Domain.toAscii?⟩

end Interlock.Url

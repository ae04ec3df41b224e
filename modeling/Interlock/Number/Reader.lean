import Interlock.Number.Binary64
import Interlock.Text.Basic

/-!
# Numbers written in text

Whole numbers and doubles as they stand alone in a text: no blank space, an optional sign and
ASCII digits. A double may have a fraction and an exponent, and there are words for the numbers
that are not finite. Every finite text is read to the nearest double.
-/

namespace Interlock.Number

open Text

/-- One more than the largest number of 64 bits. -/
def wordBound : Nat := Nat.pow 2 64

/-- A sign and what follows it; without a sign the number is not negative. -/
def takeSign : List Char → Bool × List Char
  | '-' :: cs => (true, cs)
  | '+' :: cs => (false, cs)
  | cs => (false, cs)

/-- The value of a list that holds at least one digit and nothing else. -/
def readDigits? (cs : List Char) : Option Nat :=
  if cs.isEmpty || !cs.all isDigit then none else some (digitsValue 0 cs)

/-- A natural number of 64 bits, a plus sign allowed. -/
def readWord? (s : String) : Option Nat :=
  let cs := match s.toList with
    | '+' :: cs => cs
    | cs => cs
  (readDigits? cs).filter (· < wordBound)

/-- An integer of 64 bits in two's complement, a sign allowed. -/
def readSignedWord? (s : String) : Option Int :=
  let (negative, cs) := takeSign s.toList
  match readDigits? cs with
  | none => none
  | some n =>
    let i : Int := if negative then -n else n
    if -Int.pow 2 63 ≤ i ∧ i < Int.pow 2 63 then some i else none

/-- The parts of a decimal numeral: its digits without the point, and the power of ten that
they are to be multiplied with. -/
structure Decimal where
  digits : Nat
  exponent : Int
  deriving DecidableEq, Repr

/-- Reads digits, an optional fraction and an optional exponent. The digits before and after the
point may be missing, but not both. -/
def readDecimal? (cs : List Char) : Option Decimal :=
  let whole := cs.takeWhile isDigit
  let afterWhole := cs.dropWhile isDigit
  let (frac, rest) := match afterWhole with
    | '.' :: cs => (cs.takeWhile isDigit, cs.dropWhile isDigit)
    | cs => ([], cs)
  if whole.isEmpty && frac.isEmpty then none
  else
    let digits := digitsValue 0 (whole ++ frac)
    let shift : Int := -(frac.length : Int)
    match rest with
    | [] => some ⟨digits, shift⟩
    | c :: cs =>
      if lowerChar c = 'e' then
        let (negative, cs) := takeSign cs
        (readDigits? cs).map fun n => ⟨digits, shift + (if negative then -(n : Int) else n)⟩
      else none

/-- A double: a decimal numeral, or a word for infinity or for no number, in any case. -/
def readBinary64? (s : String) : Option Binary64 :=
  let (negative, cs) := takeSign s.toList
  let word := String.ofList (cs.map lowerChar)
  if word = "inf" ∨ word = "infinity" then some (.infinite negative)
  else if word = "nan" then some .nan
  else (readDecimal? cs).map fun d => .ofDecimal negative d.digits d.exponent

end Interlock.Number

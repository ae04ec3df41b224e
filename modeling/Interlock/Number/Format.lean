import Interlock.Number.Shortest
import Interlock.Text.Basic

/-!
# Doubles as text

The digits of a double are always its shortest ones. A `FloatFormat` says how they are laid out:
where positional notation begins and ends, whether a whole number keeps a point and a zero, and
the words for what is not finite.
-/

namespace Interlock.Number

open Text

/-- The layout of the digits of a double. -/
structure FloatFormat where
  /-- The range of the exponent of the first digit in which notation is positional; `none` if it
  always is. -/
  positional : Option (Int × Int)
  /-- Whether a whole number in positional notation ends with a point and a zero. -/
  keepsPoint : Bool
  /-- The words for infinity and for what is no number. -/
  infinity : String
  notNumber : String

/-- Positional notation of digits whose point stands after the first `point` of them. -/
def layPositional (keepsPoint : Bool) (ds : List Char) (point : Int) : List Char :=
  match point with
  | .negSucc k => '0' :: '.' :: (List.replicate (k + 1) '0' ++ ds)
  | .ofNat 0 => '0' :: '.' :: ds
  | .ofNat k =>
    let whole := ds.take k ++ List.replicate (k - ds.length) '0'
    match ds.drop k with
    | [] => if keepsPoint then whole ++ ['.', '0'] else whole
    | frac => whole ++ '.' :: frac

/-- Exponent notation: one digit, the others behind a point, and the exponent with its sign. -/
def layScientific (ds : List Char) (exponent : Int) : List Char :=
  let tail := match ds.drop 1 with
    | [] => []
    | frac => '.' :: frac
  let power := (Text.ofInt exponent).toList
  ds.take 1 ++ tail ++ 'e' :: (if exponent < 0 then power else '+' :: power)

/-- A double as text. -/
def FloatFormat.render (f : FloatFormat) : Binary64 → String
  | .nan => f.notNumber
  | .infinite s => (if s then "-" else "") ++ f.infinity
  | .finite s m e =>
    let sign := if s then ['-'] else []
    if m = 0 then String.ofList (sign ++ (if f.keepsPoint then ['0', '.', '0'] else ['0']))
    else
      let d := shortest m e
      let ds := Nat.toDigits 10 d.digits
      let point : Int := ds.length + d.exponent
      let positional := match f.positional with
        | none => true
        | some (low, high) => low ≤ point - 1 && point - 1 ≤ high
      String.ofList (sign ++
        (if positional then layPositional f.keepsPoint ds point else layScientific ds (point - 1)))

end Interlock.Number

import Interlock.Number.Binary64

/-!
# The fewest digits that read back

A finite double is one point of a binary grid, and every real number that lies closer to it than
to its neighbours is read back to it. `shortest` finds the coarsest power of ten with a multiple in
that interval, and of two such multiples the nearer one. The interval includes its ends exactly if
the mantissa is even, because a tie is read to the even mantissa.
-/

namespace Interlock.Number

/-- The decimal digits of a number and the power of ten that they are to be multiplied with. -/
structure Digits where
  digits : Nat
  exponent : Int
  deriving DecidableEq, Repr

/-- The fraction `num / den` divided by `10 ^ k`, again as a fraction. -/
def scaleDownTen (num den : Nat) (k : Int) : Nat × Nat :=
  match k with
  | .ofNat k => (num, den * Nat.pow 10 k)
  | .negSucc k => (num * Nat.pow 10 (k + 1), den)

/-- The interval of the reals that are read back to a double, over the common denominator `den`:
the double itself is `mid`, and the ends belong to the interval exactly if `closed`. -/
structure Interval where
  low : Nat
  mid : Nat
  high : Nat
  den : Nat
  closed : Bool

/-- The interval of `m · 2 ^ e`. Below a power of two the grid is twice as fine, so the lower end
is half as far away there. -/
def Interval.of (m : Nat) (e : Int) : Interval :=
  let near := if m = Nat.pow 2 52 ∧ Binary64.leastExponent < e then 1 else 2
  let f := Binary64.fraction 1 (e - 2)
  ⟨(4 * m - near) * f.1, 4 * m * f.1, (4 * m + 2) * f.1, f.2, m % 2 == 0⟩

/-- Whether `d · 10 ^ k` lies in the interval. -/
def Interval.holds (i : Interval) (d : Nat) (k : Int) : Bool :=
  let lo := scaleDownTen i.low i.den k
  let hi := scaleDownTen i.high i.den k
  if i.closed then lo.1 ≤ d * lo.2 && d * hi.2 ≤ hi.1 else lo.1 < d * lo.2 && d * hi.2 < hi.1

/-- The multiple of `10 ^ k` in the interval that is nearest to its middle, if there is one. A tie
goes to the even multiple. -/
def Interval.pick? (i : Interval) (k : Int) : Option Nat :=
  let f := scaleDownTen i.mid i.den k
  let d := f.1 / f.2
  match i.holds d k, i.holds (d + 1) k with
  | true, true =>
    let r := 2 * (f.1 % f.2)
    some (if r < f.2 then d else if f.2 < r then d + 1 else if d % 2 = 0 then d else d + 1)
  | true, false => some d
  | false, true => some (d + 1)
  | false, false => none

/-- Tries the powers of ten from `k` downwards. -/
def Interval.search (i : Interval) : (steps : Nat) → (k : Int) → Digits
  | 0, k => ⟨0, k⟩
  | steps + 1, k =>
    match i.pick? k with
    | some d => ⟨d, k⟩
    | none => i.search steps (k - 1)

/-- The shortest digits of the positive double `m · 2 ^ e`. The search starts above the first digit:
`m · 2 ^ e` is less than `2 ^ (log2 m + 1 + e)`, and thirty digits below that every interval holds
a multiple. -/
def shortest (m : Nat) (e : Int) : Digits :=
  let top : Int := (m.log2 + 1 + e) * 30103 / 100000 + 2
  (Interval.of m e).search 30 top

end Interlock.Number

/-!
# Double precision numbers, exactly

A double is held as the sign, mantissa and binary exponent that it stands for, so that every
operation is exact arithmetic on natural numbers followed by one rounding. Rounding is to the
nearest double, a tie to the even mantissa, with a gradual underflow and an overflow to infinity.
-/

namespace Interlock

/-- A double: `finite s m e` stands for `m · 2 ^ e` with the sign `s`. -/
inductive Binary64
  | finite (negative : Bool) (mantissa : Nat) (exponent : Int)
  | infinite (negative : Bool)
  | nan
  deriving DecidableEq, Repr, Inhabited

namespace Binary64

/-- The exponent of the smallest positive double. -/
def leastExponent : Int := -1074

/-- The largest exponent of a double with a full mantissa. -/
def greatestExponent : Int := 971

/-- Zero of either sign. -/
def zero (negative : Bool) : Binary64 := .finite negative 0 leastExponent

/-! ## Rounding -/

/-- The fraction `num / den` divided by `2 ^ e`, again as a fraction. -/
def scaleDown (num den : Nat) (e : Int) : Nat × Nat :=
  match e with
  | .ofNat k => (num, den * Nat.pow 2 k)
  | .negSucc k => (num * Nat.pow 2 (k + 1), den)

/-- The quotient of two numbers rounded to the nearest one, a tie to the even one. -/
def divToEven (num den : Nat) : Nat :=
  let q := num / den
  let r := num % den
  if 2 * r < den then q
  else if den < 2 * r then q + 1
  else if q % 2 = 0 then q else q + 1

/-- The integer part of the binary logarithm of a positive fraction. -/
def floorLog2 (num den : Nat) : Int :=
  let e : Int := num.log2 - den.log2
  let s := scaleDown num den e
  if s.1 < s.2 then e - 1 else e

/-- The double nearest to the fraction `num / den`, with the given sign. -/
def ofFraction (negative : Bool) (num den : Nat) : Binary64 :=
  if num = 0 then zero negative
  else
    let e := max leastExponent (floorLog2 num den - 52)
    let s := scaleDown num den e
    let m := divToEven s.1 s.2
    let r := if m = Nat.pow 2 53 then (Nat.pow 2 52, e + 1) else (m, e)
    if greatestExponent < r.2 then .infinite negative else .finite negative r.1 r.2

/-- The double nearest to a natural number. -/
def ofNat (n : Nat) : Binary64 := ofFraction false n 1

/-- The double nearest to `digits · 10 ^ exponent`. Exponents far out of range are decided by
size alone: no double lies above `10 ^ 400` or, apart from zero, below `10 ^ -400`. -/
def ofDecimal (negative : Bool) (digits : Nat) (exponent : Int) : Binary64 :=
  if digits = 0 then zero negative
  else
    let size : Int := exponent + (Nat.toDigits 10 digits).length
    if 400 < size then .infinite negative
    else if size < -400 then zero negative
    else
      match exponent with
      | .ofNat k => ofFraction negative (digits * Nat.pow 10 k) 1
      | .negSucc k => ofFraction negative digits (Nat.pow 10 (k + 1))

/-! ## Arithmetic -/

/-- The product `m · 2 ^ e` as a fraction. -/
def fraction (m : Nat) (e : Int) : Nat × Nat :=
  match e with
  | .ofNat k => (m * Nat.pow 2 k, 1)
  | .negSucc k => (m, Nat.pow 2 (k + 1))

/-- A double with the opposite sign. -/
def neg : Binary64 → Binary64
  | .finite s m e => .finite (!s) m e
  | .infinite s => .infinite (!s)
  | .nan => .nan

/-- The rounded product of two finite doubles. -/
def mulFinite (s : Bool) (m₁ m₂ : Nat) (e : Int) : Binary64 :=
  let f := fraction (m₁ * m₂) e
  ofFraction s f.1 f.2

/-- The product of two doubles. -/
def mul : Binary64 → Binary64 → Binary64
  | .finite s₁ m₁ e₁, .finite s₂ m₂ e₂ => mulFinite (s₁ != s₂) m₁ m₂ (e₁ + e₂)
  | .infinite s₁, .finite s₂ m _ => if m = 0 then .nan else .infinite (s₁ != s₂)
  | .finite s₁ m _, .infinite s₂ => if m = 0 then .nan else .infinite (s₁ != s₂)
  | .infinite s₁, .infinite s₂ => .infinite (s₁ != s₂)
  | _, _ => .nan

/-- The quotient of two doubles. -/
def div : Binary64 → Binary64 → Binary64
  | .finite s₁ m₁ e₁, .finite s₂ m₂ e₂ =>
    if m₂ = 0 then (if m₁ = 0 then .nan else .infinite (s₁ != s₂))
    else
      let f := fraction m₁ (e₁ - e₂)
      ofFraction (s₁ != s₂) f.1 (f.2 * m₂)
  | .infinite s₁, .finite s₂ _ _ => .infinite (s₁ != s₂)
  | .finite s₁ _ _, .infinite s₂ => zero (s₁ != s₂)
  | _, _ => .nan

/-! ## Whole parts -/

/-- Whether a double is zero, of either sign. -/
def isZero : Binary64 → Bool
  | .finite _ m _ => m == 0
  | _ => false

/-- Whether a double is infinite. -/
def isInfinite : Binary64 → Bool
  | .infinite _ => true
  | _ => false

/-- The whole part of a finite double that is zero or positive, and whether it is exact. -/
def wholePart? : Binary64 → Option (Nat × Bool)
  | .finite s m e =>
    if s && m != 0 then none
    else
      let f := fraction m e
      some (f.1 / f.2, f.1 % f.2 == 0)
  | _ => none

/-- The nearest integer, a half away from zero, clamped to `low … high`; a number that is none
goes to zero. -/
def roundClamped (low high : Int) : Binary64 → Int
  | .finite s m e =>
    let f := fraction m e
    let n : Int := (2 * f.1 + f.2) / (2 * f.2)
    max low (min high (if s then -n else n))
  | .infinite s => if s then low else high
  | .nan => max low (min high 0)

end Binary64

end Interlock

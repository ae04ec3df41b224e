import Interlock.Number.Shortest
import Mathlib

/-!
# Fractions by their value

`Binary64.fraction`, `scaleDown` and `scaleDownTen` compute with pairs of natural numbers. They are
two functions of the base, `raised` and `scaled`, whose values are `n * base ^ k` and `num / den /
base ^ k` (`raised_value`, `scaled_value`).
-/

namespace Interlock

namespace Number

variable {base den : ℕ}

/-! ## Powers of a base -/

/-- The product `n * base ^ k` as a fraction. -/
def raised (base n : ℕ) : ℤ → ℕ × ℕ
  | .ofNat k => (n * base ^ k, 1)
  | .negSucc k => (n, base ^ (k + 1))

theorem raised_pos (hbase : 0 < base) (n : ℕ) (k : ℤ) : 0 < (raised base n k).2 := by
  cases k with
  | ofNat k => exact Nat.one_pos
  | negSucc k => exact Nat.pow_pos hbase

/-- The value of `raised base n k` is `n * base ^ k`. -/
theorem raised_value (base n : ℕ) (k : ℤ) :
    ((raised base n k).1 : ℚ) / (raised base n k).2 = n * (base : ℚ) ^ k := by
  cases k with
  | ofNat k =>
    show ((n * base ^ k : ℕ) : ℚ) / (1 : ℕ) = n * (base : ℚ) ^ (k : ℤ)
    rw [zpow_natCast]
    push_cast
    exact div_one _
  | negSucc k =>
    show (n : ℚ) / ((base ^ (k + 1) : ℕ) : ℚ) = n * (base : ℚ) ^ (Int.negSucc k)
    rw [zpow_negSucc]
    push_cast
    exact div_eq_mul_inv _ _

/-- The fraction `num / den` divided by `base ^ k`. -/
def scaled (base num den : ℕ) : ℤ → ℕ × ℕ
  | .ofNat k => (num, den * base ^ k)
  | .negSucc k => (num * base ^ (k + 1), den)

/-- `Binary64.scaleDown` is `scaled 2`. -/
theorem scaleDown_eq (num den : ℕ) (e : ℤ) :
    Binary64.scaleDown num den e = scaled 2 num den e := by
  cases e <;> rfl

/-- `scaleDownTen` is `scaled 10`. -/
theorem scaleDownTen_eq (num den : ℕ) (k : ℤ) :
    scaleDownTen num den k = scaled 10 num den k := by
  cases k <;> rfl

theorem scaled_pos (hbase : 0 < base) (num : ℕ) (hden : 0 < den) (k : ℤ) :
    0 < (scaled base num den k).2 := by
  cases k with
  | ofNat k => exact Nat.mul_pos hden (Nat.pow_pos hbase)
  | negSucc k => exact hden

/-- The value of `scaled base num den k` is `num / den / base ^ k`. -/
theorem scaled_value (base num den : ℕ) (k : ℤ) :
    ((scaled base num den k).1 : ℚ) / (scaled base num den k).2 =
      (num : ℚ) / den / (base : ℚ) ^ k := by
  cases k with
  | ofNat k =>
    show (num : ℚ) / ((den * base ^ k : ℕ) : ℚ) = num / den / (base : ℚ) ^ (k : ℤ)
    rw [zpow_natCast]
    push_cast
    exact (div_div _ _ _).symm
  | negSucc k =>
    show ((num * base ^ (k + 1) : ℕ) : ℚ) / (den : ℚ) = num / den / (base : ℚ) ^ (Int.negSucc k)
    rw [zpow_negSucc, div_inv_eq_mul]
    push_cast
    exact mul_div_right_comm _ _ _

/-! ## Whole quotients -/

/-- `a / b = n` if and only if the rational quotient lies in `[n, n + 1)`. -/
theorem quotient_eq_iff {a b : ℕ} (hb : 0 < b) (n : ℕ) :
    a / b = n ↔ (n : ℚ) ≤ (a : ℚ) / b ∧ (a : ℚ) / b < n + 1 := by
  rw [← Nat.floor_div_eq_div (K := ℚ) a b]
  exact Nat.floor_eq_iff (by positivity)

/-- `a % b = 0` if and only if the rational quotient is `a / b`. -/
theorem remainder_eq_zero_iff {a b : ℕ} (hb : 0 < b) :
    a % b = 0 ↔ (a : ℚ) / b = (a / b : ℕ) := by
  have hb' : (b : ℚ) ≠ 0 := by positivity
  constructor
  · intro h
    exact (Nat.cast_div (Nat.dvd_of_mod_eq_zero h) hb').symm
  · intro h
    rw [div_eq_iff hb'] at h
    have ha : a = a / b * b := by exact_mod_cast h
    rw [ha, Nat.mul_mod_left]

end Number

namespace Binary64

open Number

/-! ## The fraction of a double -/

/-- `fraction` is `raised 2`. -/
theorem fraction_eq (m : ℕ) (e : ℤ) : fraction m e = raised 2 m e := by
  cases e <;> rfl

theorem fraction_pos (m : ℕ) (e : ℤ) : 0 < (fraction m e).2 := by
  rw [fraction_eq]
  exact raised_pos two_pos m e

/-- The value of `fraction m e` is `m * 2 ^ e`. -/
theorem fraction_value (m : ℕ) (e : ℤ) :
    ((fraction m e).1 : ℚ) / (fraction m e).2 = m * 2 ^ e := by
  rw [fraction_eq]
  exact raised_value 2 m e

end Binary64

end Interlock

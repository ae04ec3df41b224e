import Interlock.Proofs.Number.Fraction
import Interlock.Proofs.Url.Digits
import Mathlib

/-!
# Rounding to the nearest double

Every number is rounded by `ofFraction`, whether it is read from a text or comes out of an
operation.

* `ofFraction_of_near`: a fraction that is `Near` a double is rounded to it. `Near` goes half way to
  the neighbours, and has the ends if the mantissa is even.
* `ofFraction_eq_finite`: what comes out is `Proper`, and at most half a unit of its last place
  away.
* `ofDecimal_of_near`, `ofDecimal_eq_finite`: the same for `ofDecimal`, where an exponent far out of
  range is decided by the number of digits.
-/

namespace Interlock

namespace Binary64

open Number

/-! ## The binary logarithm -/

/-- `2 ^ n.log2 ≤ n < 2 ^ (n.log2 + 1)`, over the rationals. -/
theorem log2_bounds {n : ℕ} (hn : 0 < n) :
    (2 : ℚ) ^ (n.log2 : ℤ) ≤ n ∧ (n : ℚ) < 2 ^ ((n.log2 : ℤ) + 1) := by
  have hlow := Nat.log2_self_le hn.ne'
  have hhigh := Nat.lt_log2_self (n := n)
  rw [zpow_add_one₀ two_ne_zero, zpow_natCast]
  exact ⟨by exact_mod_cast hlow, by rw [← pow_succ]; exact_mod_cast hhigh⟩

/-- `2 ^ floorLog2 num den ≤ num / den < 2 ^ (floorLog2 num den + 1)`. -/
theorem floorLog2_bounds {num den : ℕ} (hnum : 0 < num) (hden : 0 < den) :
    (2 : ℚ) ^ floorLog2 num den ≤ (num : ℚ) / den ∧
      (num : ℚ) / den < 2 ^ (floorLog2 num den + 1) := by
  obtain ⟨hnlow, hnhigh⟩ := log2_bounds hnum
  obtain ⟨hdlow, hdhigh⟩ := log2_bounds hden
  have hden' : (0 : ℚ) < den := by exact_mod_cast hden
  -- the logarithms of the two parts leave two powers of two
  have hlow : (2 : ℚ) ^ ((num.log2 : ℤ) - den.log2 - 1) ≤ (num : ℚ) / den := by
    rw [le_div_iff₀ hden']
    calc (2 : ℚ) ^ ((num.log2 : ℤ) - den.log2 - 1) * den
        ≤ 2 ^ ((num.log2 : ℤ) - den.log2 - 1) * 2 ^ ((den.log2 : ℤ) + 1) := by gcongr
      _ = 2 ^ (num.log2 : ℤ) := by
        rw [← zpow_add₀ two_ne_zero]
        congr 1
        ring
      _ ≤ num := hnlow
  have hhigh : (num : ℚ) / den < 2 ^ ((num.log2 : ℤ) - den.log2 + 1) := by
    rw [div_lt_iff₀ hden']
    calc (num : ℚ) < 2 ^ ((num.log2 : ℤ) + 1) := hnhigh
      _ = 2 ^ ((num.log2 : ℤ) - den.log2 + 1) * 2 ^ (den.log2 : ℤ) := by
        rw [← zpow_add₀ two_ne_zero]
        congr 1
        ring
      _ ≤ 2 ^ ((num.log2 : ℤ) - den.log2 + 1) * den := by gcongr
  -- the comparison at the middle one decides between them
  have hpower : (0 : ℚ) < 2 ^ ((num.log2 : ℤ) - den.log2) := zpow_pos two_pos _
  have hscaled := scaled_value 2 num den ((num.log2 : ℤ) - den.log2)
  have hpos := scaled_pos two_pos num hden ((num.log2 : ℤ) - den.log2)
  push_cast at hscaled
  unfold floorLog2
  simp only [scaleDown_eq]
  generalize scaled 2 num den ((num.log2 : ℤ) - den.log2) = s at hscaled hpos
  generalize (num.log2 : ℤ) - den.log2 = e at *
  have hpos' : (0 : ℚ) < s.2 := by exact_mod_cast hpos
  have hcompare : s.1 < s.2 ↔ (num : ℚ) / den < 2 ^ e := by
    rw [← div_lt_one hpower, ← hscaled, div_lt_one hpos']
    exact Nat.cast_lt.symm
  split
  case isTrue hlt =>
    rw [sub_add_cancel]
    exact ⟨hlow, hcompare.mp hlt⟩
  case isFalse hge => exact ⟨not_lt.mp (mt hcompare.mpr hge), hhigh⟩

/-! ## The nearest number -/

/-- `n - 1 / 2 ≤ a / b`, without fractions. -/
theorem sub_half_iff {a b : ℕ} (hb : 0 < b) (n : ℕ) :
    ((n : ℚ) - 1 / 2 ≤ (a : ℚ) / b ↔ 2 * (n * b) ≤ 2 * a + b) ∧
      ((n : ℚ) - 1 / 2 < (a : ℚ) / b ↔ 2 * (n * b) < 2 * a + b) := by
  have hb' : (0 : ℚ) < b := by exact_mod_cast hb
  rw [le_div_iff₀ hb', lt_div_iff₀ hb', ← Nat.cast_le (α := ℚ), ← Nat.cast_lt (α := ℚ)]
  push_cast
  constructor <;> constructor <;> intro h <;> linarith

/-- `a / b ≤ n + 1 / 2`, without fractions. -/
theorem add_half_iff {a b : ℕ} (hb : 0 < b) (n : ℕ) :
    ((a : ℚ) / b ≤ n + 1 / 2 ↔ 2 * a ≤ 2 * (n * b) + b) ∧
      ((a : ℚ) / b < n + 1 / 2 ↔ 2 * a < 2 * (n * b) + b) := by
  have hb' : (0 : ℚ) < b := by exact_mod_cast hb
  rw [div_le_iff₀ hb', div_lt_iff₀ hb', ← Nat.cast_le (α := ℚ), ← Nat.cast_lt (α := ℚ)]
  push_cast
  constructor <;> constructor <;> intro h <;> linarith

theorem eq_div_or_succ {a b n : ℕ} (hb : 0 < b) (hlow : 2 * (n * b) ≤ 2 * a + b)
    (hhigh : 2 * a ≤ 2 * (n * b) + b) : n = a / b ∨ n = a / b + 1 := by
  have hdiv := Nat.div_add_mod a b
  have hmod := Nat.mod_lt a hb
  rw [Nat.mul_comm] at hdiv
  have hle : a / b ≤ n := by
    by_contra hlt
    have hmul : (n + 1) * b ≤ a / b * b := Nat.mul_le_mul_right b (by omega)
    rw [Nat.succ_mul] at hmul
    omega
  have hge : n ≤ a / b + 1 := by
    by_contra hlt
    have hmul : (a / b + 2) * b ≤ n * b := Nat.mul_le_mul_right b (by omega)
    rw [Nat.add_mul] at hmul
    omega
  omega

/-- A number within `1 / 2` of `a / b` is `divToEven a b`, at exactly `1 / 2` only if it is even. -/
theorem divToEven_of_near {a b n : ℕ} (hb : 0 < b) (hlow : (n : ℚ) - 1 / 2 ≤ (a : ℚ) / b)
    (hhigh : (a : ℚ) / b ≤ n + 1 / 2)
    (hends : n % 2 = 1 → (n : ℚ) - 1 / 2 < (a : ℚ) / b ∧ (a : ℚ) / b < n + 1 / 2) :
    divToEven a b = n := by
  rw [(sub_half_iff hb n).1] at hlow
  rw [(add_half_iff hb n).1] at hhigh
  rw [(sub_half_iff hb n).2, (add_half_iff hb n).2] at hends
  have hn := eq_div_or_succ hb hlow hhigh
  have hdiv := Nat.div_add_mod a b
  have hmod := Nat.mod_lt a hb
  rw [Nat.mul_comm] at hdiv
  -- the rest of the division decides in favour of the same one
  have hround : divToEven a b = if 2 * (a % b) < b then a / b
      else if b < 2 * (a % b) then a / b + 1
      else if a / b % 2 = 0 then a / b else a / b + 1 := rfl
  rw [hround]
  generalize a / b = q at *
  generalize a % b = r at *
  rcases hn with rfl | rfl
  · split
    · rfl
    · split
      · omega
      · split <;> omega
  · have hsucc : (q + 1) * b = q * b + b := Nat.succ_mul q b
    split
    · omega
    · split
      · rfl
      · split <;> omega

/-- `divToEven a b` is within `1 / 2` of `a / b`. -/
theorem divToEven_near {a b : ℕ} (hb : 0 < b) :
    (divToEven a b : ℚ) - 1 / 2 ≤ (a : ℚ) / b ∧ (a : ℚ) / b ≤ divToEven a b + 1 / 2 := by
  rw [(sub_half_iff hb _).1, (add_half_iff hb _).1]
  have hdiv := Nat.div_add_mod a b
  rw [Nat.mul_comm] at hdiv
  have hmod := Nat.mod_lt a hb
  have hsucc : (a / b + 1) * b = a / b * b + b := Nat.succ_mul _ _
  unfold divToEven
  dsimp only
  split
  · omega
  · split
    · omega
    · split <;> omega

/-- The mantissa has 53 bits, all of them unless the exponent is `leastExponent`. -/
structure Proper (m : ℕ) (e : ℤ) : Prop where
  lt : m < 2 ^ 53
  normal : 2 ^ 52 ≤ m ∨ e = leastExponent
  low : leastExponent ≤ e
  high : e ≤ greatestExponent

/-- A finite double with `Proper` mantissa and exponent. -/
def IsProper (x : Binary64) : Prop := ∃ s m e, x = finite s m e ∧ Proper m e

/-- How far below a double its reals begin, in units of its last place. The grid is twice as fine
below a power of two. -/
def reach (m : ℕ) (e : ℤ) : ℚ := if m = 2 ^ 52 ∧ leastExponent < e then 1 / 4 else 1 / 2

/-- The reals that are rounded to a double. The ends are among them if the mantissa is even. -/
structure Near (m : ℕ) (e : ℤ) (q : ℚ) : Prop where
  above : (m - reach m e) * 2 ^ e ≤ q
  below : q ≤ (m + 1 / 2) * 2 ^ e
  ends : m % 2 = 1 → (m - reach m e) * 2 ^ e < q ∧ q < (m + 1 / 2) * 2 ^ e

/-- A double reaches at most half a unit down. -/
theorem reach_le (m : ℕ) (e : ℤ) : reach m e ≤ 1 / 2 := by
  unfold reach
  split <;> norm_num

variable {m num den : ℕ} {e : ℤ}

/-! ## The steps of a rounding -/

/-- The exponent of the unit that a fraction is counted in. -/
def unitExponent (num den : ℕ) : ℤ := max leastExponent (floorLog2 num den - 52)

/-- The number of units in a fraction, by `divToEven`. -/
def units (num den : ℕ) : ℕ :=
  divToEven (scaled 2 num den (unitExponent num den)).1
    (scaled 2 num den (unitExponent num den)).2

/-- The double of `d` units. The `2 ^ 53` units of an exponent are `2 ^ 52` of the next. -/
def carried (s : Bool) (d : ℕ) (e : ℤ) : Binary64 :=
  let r := if d = 2 ^ 53 then (2 ^ 52, e + 1) else (d, e)
  if greatestExponent < r.2 then infinite s else finite s r.1 r.2

/-- `ofFraction` is `carried` of the `units`. -/
theorem ofFraction_eq (s : Bool) (hnum : num ≠ 0) :
    ofFraction s num den = carried s (units num den) (unitExponent num den) := by
  unfold ofFraction units unitExponent
  rw [if_neg hnum, ← scaleDown_eq]
  rfl

/-- Less than `2 ^ 53` units are the mantissa. -/
theorem carried_of_lt {s : Bool} {d : ℕ} (hd : d < 2 ^ 53) (he : e ≤ greatestExponent) :
    carried s d e = finite s d e := by
  unfold carried
  rw [if_neg hd.ne]
  exact if_neg (not_lt.mpr he)

/-- `2 ^ 53` units are `2 ^ 52` of the next exponent. -/
theorem carried_full {s : Bool} (he : e + 1 ≤ greatestExponent) :
    carried s (2 ^ 53) e = finite s (2 ^ 52) (e + 1) := by
  unfold carried
  rw [if_pos rfl]
  exact if_neg (not_lt.mpr he)

theorem carried_eq_finite {s s' : Bool} {d : ℕ} {e' : ℤ} (h : carried s d e = finite s' m e') :
    s' = s ∧ e' ≤ greatestExponent ∧
      (d = 2 ^ 53 ∧ m = 2 ^ 52 ∧ e' = e + 1 ∨ d ≠ 2 ^ 53 ∧ m = d ∧ e' = e) := by
  unfold carried at h
  by_cases hd : d = 2 ^ 53
  · rw [if_pos hd] at h
    dsimp only at h
    split at h
    · cases h
    · next he =>
      injection h with hs hm he'
      exact ⟨hs.symm, by omega, .inl ⟨hd, hm.symm, he'.symm⟩⟩
  · rw [if_neg hd] at h
    dsimp only at h
    split at h
    · cases h
    · next he =>
      injection h with hs hm he'
      exact ⟨hs.symm, by omega, .inr ⟨hd, hm.symm, he'.symm⟩⟩

theorem carried_cases (s : Bool) (d : ℕ) (e : ℤ) :
    carried s d e = infinite s ∨ ∃ m e', carried s d e = finite s m e' := by
  unfold carried
  generalize (if d = 2 ^ 53 then (2 ^ 52, e + 1) else (d, e)) = r
  by_cases h : greatestExponent < r.2
  · exact .inl (if_pos h)
  · exact .inr ⟨r.1, r.2, if_neg h⟩

/-- `ofFraction` is infinite or finite. -/
theorem ofFraction_cases (s : Bool) (num den : ℕ) :
    ofFraction s num den = infinite s ∨ ∃ m e, ofFraction s num den = finite s m e := by
  rcases Nat.eq_zero_or_pos num with rfl | hnum
  · exact .inr ⟨0, leastExponent, rfl⟩
  · rw [ofFraction_eq s hnum.ne']
    exact carried_cases s _ _

theorem carried_ne_infinite {s s' : Bool} {d : ℕ} (he : e ≤ greatestExponent)
    (hd : d = 2 ^ 53 → e < greatestExponent) : carried s d e ≠ infinite s' := by
  unfold carried
  by_cases hfull : d = 2 ^ 53
  · rw [if_pos hfull]
    dsimp only
    rw [if_neg (by have := hd hfull; omega)]
    nofun
  · rw [if_neg hfull]
    dsimp only
    rw [if_neg (not_lt.mpr he)]
    nofun

/-- `units num den` is within `1 / 2` of the fraction, in units. -/
theorem units_near (num : ℕ) (hden : 0 < den) :
    ((units num den : ℚ) - 1 / 2) * 2 ^ unitExponent num den ≤ (num : ℚ) / den ∧
      (num : ℚ) / den ≤ (units num den + 1 / 2) * 2 ^ unitExponent num den := by
  have hpower : (0 : ℚ) < 2 ^ unitExponent num den := zpow_pos two_pos _
  have hvalue := scaled_value 2 num den (unitExponent num den)
  push_cast at hvalue
  have hnear := divToEven_near (a := (scaled 2 num den (unitExponent num den)).1)
    (scaled_pos two_pos num hden (unitExponent num den))
  rw [hvalue, le_div_iff₀ hpower, div_le_iff₀ hpower] at hnear
  exact hnear

/-- A number of units within `1 / 2` of a fraction is `units num den`. -/
theorem units_of_near {d : ℕ} (hden : 0 < den)
    (hlow : ((d : ℚ) - 1 / 2) * 2 ^ unitExponent num den ≤ (num : ℚ) / den)
    (hhigh : (num : ℚ) / den ≤ (d + 1 / 2) * 2 ^ unitExponent num den)
    (hends : d % 2 = 1 → ((d : ℚ) - 1 / 2) * 2 ^ unitExponent num den < (num : ℚ) / den ∧
      (num : ℚ) / den < (d + 1 / 2) * 2 ^ unitExponent num den) : units num den = d := by
  have hpower : (0 : ℚ) < 2 ^ unitExponent num den := zpow_pos two_pos _
  have hvalue := scaled_value 2 num den (unitExponent num den)
  push_cast at hvalue
  apply divToEven_of_near (scaled_pos two_pos num hden _)
  · rw [hvalue, le_div_iff₀ hpower]
    exact hlow
  · rw [hvalue, div_le_iff₀ hpower]
    exact hhigh
  · rw [hvalue, lt_div_iff₀ hpower, div_lt_iff₀ hpower]
    exact hends

/-- A fraction is less than `2 ^ 53` of its units. -/
theorem lt_unit (hnum : 0 < num) (hden : 0 < den) :
    (num : ℚ) / den < 2 ^ 53 * 2 ^ unitExponent num den := by
  have hle : floorLog2 num den + 1 ≤ 53 + unitExponent num den := by
    unfold unitExponent
    omega
  calc (num : ℚ) / den < 2 ^ (floorLog2 num den + 1) := (floorLog2_bounds hnum hden).2
    _ ≤ 2 ^ (53 + unitExponent num den) := zpow_le_zpow_right₀ one_le_two hle
    _ = 2 ^ 53 * 2 ^ unitExponent num den := zpow_add₀ two_ne_zero _ _

/-- A fraction is at least `2 ^ 52` of its units, unless the exponent is `leastExponent`. -/
theorem le_unit (hnum : 0 < num) (hden : 0 < den)
    (h : unitExponent num den ≠ leastExponent) :
    2 ^ 52 * 2 ^ unitExponent num den ≤ (num : ℚ) / den := by
  have heq : 52 + unitExponent num den = floorLog2 num den := by
    unfold unitExponent at h ⊢
    omega
  calc (2 : ℚ) ^ 52 * 2 ^ unitExponent num den = 2 ^ (52 + unitExponent num den) :=
        (zpow_add₀ two_ne_zero 52 _).symm
    _ = 2 ^ floorLog2 num den := by rw [heq]
    _ ≤ (num : ℚ) / den := (floorLog2_bounds hnum hden).1

/-- A fraction less than `2 ^ 53 * 2 ^ e` has `unitExponent` at most `e`. -/
theorem unitExponent_le (hnum : 0 < num) (hden : 0 < den) (he : leastExponent ≤ e)
    (h : (num : ℚ) / den < 2 ^ 53 * 2 ^ e) : unitExponent num den ≤ e := by
  by_contra hlt
  have hunits := le_unit hnum hden (by omega)
  have hnext : (2 : ℚ) ^ (e + 1) ≤ 2 ^ unitExponent num den :=
    zpow_le_zpow_right₀ one_le_two (by omega)
  rw [zpow_add_one₀ two_ne_zero] at hnext
  linarith

/-! ## What is rounded to a double -/

theorem Near.lt {q : ℚ} (h : Near m e q) (hp : Proper m e) : q < 2 ^ 53 * 2 ^ e := by
  have hm : (m : ℚ) + 1 ≤ 2 ^ 53 := by exact_mod_cast hp.lt
  have hpower : (0 : ℚ) < 2 ^ e := zpow_pos two_pos e
  calc q ≤ (m + 1 / 2) * 2 ^ e := h.below
    _ < 2 ^ 53 * 2 ^ e := by
      apply mul_lt_mul_of_pos_right _ hpower
      linarith

/-- What is `Near` a double is at least `n - 1 / 2` units, for every `n` up to the mantissa. -/
theorem Near.ge {q : ℚ} (h : Near m e q) {n : ℕ} (hn : n ≤ m) : (n - 1 / 2) * 2 ^ e ≤ q := by
  have hm : (n : ℚ) ≤ m := by exact_mod_cast hn
  have hreach := reach_le m e
  calc ((n : ℚ) - 1 / 2) * 2 ^ e ≤ (m - reach m e) * 2 ^ e := by
        apply mul_le_mul_of_nonneg_right _ (zpow_pos two_pos e).le
        linarith
    _ ≤ q := h.above

/-- A fraction `Near` a double has its exponent as `unitExponent`, or the one below if the double is
a power of two. -/
theorem unitExponent_of_near (hnum : 0 < num) (hden : 0 < den) (hp : Proper m e)
    (h : Near m e ((num : ℚ) / den)) :
    unitExponent num den = e ∨
      m = 2 ^ 52 ∧ leastExponent < e ∧ unitExponent num den = e - 1 := by
  have hpower : (0 : ℚ) < 2 ^ e := zpow_pos two_pos e
  have hleast : leastExponent ≤ unitExponent num den := le_max_left _ _
  have hle := unitExponent_le hnum hden hp.low (h.lt hp)
  by_cases heq : unitExponent num den = e
  · exact .inl heq
  · have hlt := lt_unit hnum hden
    have hnormal := hp.normal.resolve_right (by omega)
    have hprev : (2 : ℚ) ^ unitExponent num den ≤ 2 ^ (e - 1) :=
      zpow_le_zpow_right₀ one_le_two (by omega)
    rw [zpow_sub_one₀ two_ne_zero] at hprev
    -- only the least of the full mantissas comes down to units of half the size
    have hm : m = 2 ^ 52 := by
      by_contra hne
      have hge := h.ge (n := 2 ^ 52 + 1) (by omega)
      push_cast at hge
      linarith
    refine .inr ⟨hm, by omega, ?_⟩
    -- and none to smaller ones
    by_contra hne
    have hprev : (2 : ℚ) ^ unitExponent num den ≤ 2 ^ (e - 2) :=
      zpow_le_zpow_right₀ one_le_two (by omega)
    rw [zpow_sub₀ two_ne_zero] at hprev
    have hge := h.ge hnormal
    push_cast at hge
    linarith

/-- In units of the double, `units` is the mantissa. -/
theorem units_of_eq (hden : 0 < den) (h : Near m e ((num : ℚ) / den))
    (hunit : unitExponent num den = e) : units num den = m := by
  have hreach : ((m : ℚ) - 1 / 2) * 2 ^ e ≤ (m - reach m e) * 2 ^ e := by
    apply mul_le_mul_of_nonneg_right _ (zpow_pos two_pos e).le
    linarith [reach_le m e]
  apply units_of_near hden
  · rw [hunit]
    exact h.ge le_rfl
  · rw [hunit]
    exact h.below
  · rw [hunit]
    intro hodd
    obtain ⟨habove, hbelow⟩ := h.ends hodd
    exact ⟨lt_of_le_of_lt hreach habove, hbelow⟩

/-- In units of half the size, `units` of what is `Near` a power of two is `2 ^ 53`. -/
theorem units_of_eq_sub_one (hnum : 0 < num) (hden : 0 < den) (h : Near m e ((num : ℚ) / den))
    (hm : m = 2 ^ 52) (hlow : leastExponent < e) (hunit : unitExponent num den = e - 1) :
    units num den = 2 ^ 53 := by
  have hreach : reach m e = 1 / 4 := if_pos ⟨hm, hlow⟩
  have hprev : (2 : ℚ) ^ e = 2 ^ (e - 1) * 2 := by
    rw [← zpow_add_one₀ two_ne_zero, sub_add_cancel]
  have hpower : (0 : ℚ) < 2 ^ (e - 1) := zpow_pos two_pos _
  have habove := h.above
  rw [hreach, hm, hprev] at habove
  push_cast at habove
  have hlt := lt_unit hnum hden
  rw [hunit] at hlt
  apply units_of_near hden
  · rw [hunit]
    push_cast
    linarith
  · rw [hunit]
    push_cast
    linarith
  · intro hodd
    exact absurd hodd (by decide)

/-- `ofFraction` rounds what is `Near` a double to the double. -/
theorem ofFraction_of_near (s : Bool) (hnum : 0 < num) (hden : 0 < den) (hp : Proper m e)
    (h : Near m e ((num : ℚ) / den)) : ofFraction s num den = finite s m e := by
  rw [ofFraction_eq s hnum.ne']
  rcases unitExponent_of_near hnum hden hp h with hunit | ⟨hm, hlow, hunit⟩
  · rw [units_of_eq hden h hunit, hunit, carried_of_lt hp.lt hp.high]
  · -- the units go up to the next power of two, which is carried
    have hhigh : e - 1 + 1 ≤ greatestExponent := by
      rw [sub_add_cancel]
      exact hp.high
    rw [units_of_eq_sub_one hnum hden h hm hlow hunit, hunit, carried_full hhigh,
      sub_add_cancel, hm]

theorem units_le (hnum : 0 < num) (hden : 0 < den) : units num den ≤ 2 ^ 53 := by
  have hpower : (0 : ℚ) < 2 ^ unitExponent num den := zpow_pos two_pos _
  by_contra hd
  have hd' : (2 ^ 53 + 1 : ℚ) ≤ units num den := by exact_mod_cast not_le.mp hd
  have hmul := mul_le_mul_of_nonneg_right hd' hpower.le
  linarith [lt_unit hnum hden, (units_near num hden).1]

theorem le_units (hnum : 0 < num) (hden : 0 < den) (h : unitExponent num den ≠ leastExponent) :
    2 ^ 52 ≤ units num den := by
  have hpower : (0 : ℚ) < 2 ^ unitExponent num den := zpow_pos two_pos _
  by_contra hd
  have hd' : (units num den + 1 : ℚ) ≤ 2 ^ 52 := by exact_mod_cast not_le.mp hd
  have hmul := mul_le_mul_of_nonneg_right hd' hpower.le
  linarith [le_unit hnum hden h, (units_near num hden).2]

/-- What `ofFraction` returns is `Proper`, at most half a unit of its last place away. -/
theorem ofFraction_eq_finite {s s' : Bool} (hden : 0 < den)
    (h : ofFraction s num den = finite s' m e) :
    s' = s ∧ Proper m e ∧ |(m : ℚ) * 2 ^ e - (num : ℚ) / den| ≤ 2 ^ e / 2 := by
  rcases Nat.eq_zero_or_pos num with rfl | hnum
  · have hzero : ofFraction s 0 den = finite s 0 leastExponent := rfl
    rw [hzero] at h
    injection h with hs hm he
    subst hs hm he
    refine ⟨rfl, ⟨by norm_num, .inr rfl, le_rfl, by decide⟩, ?_⟩
    rw [Nat.cast_zero, zero_mul, zero_div, sub_zero, abs_zero]
    positivity
  · have hpower : (0 : ℚ) < 2 ^ unitExponent num den := zpow_pos two_pos _
    have hleast : leastExponent ≤ unitExponent num den := le_max_left _ _
    have hle := units_le hnum hden
    obtain ⟨hlow, hhigh⟩ := units_near num hden
    rw [ofFraction_eq s hnum.ne'] at h
    obtain ⟨hs, hgreatest, hcases⟩ := carried_eq_finite h
    refine ⟨hs, ?_⟩
    rcases hcases with ⟨hd, rfl, rfl⟩ | ⟨hd, rfl, rfl⟩
    · -- carried to the next exponent
      refine ⟨⟨by norm_num, .inl le_rfl, by omega, hgreatest⟩, ?_⟩
      rw [hd] at hlow hhigh
      push_cast at hlow hhigh
      rw [zpow_add_one₀ two_ne_zero, abs_sub_le_iff]
      push_cast
      constructor <;> linarith
    · refine ⟨⟨by omega, ?_, hleast, hgreatest⟩, ?_⟩
      · by_cases heq : unitExponent num den = leastExponent
        · exact .inr heq
        · exact .inl (le_units hnum hden heq)
      · rw [abs_sub_le_iff]
        constructor <;> linarith

/-- A fraction not above a `Proper` double is rounded to one with `IsProper`. -/
theorem isProper_ofFraction (s : Bool) (hden : 0 < den) (hp : Proper m e)
    (h : (num : ℚ) / den ≤ m * 2 ^ e) : (ofFraction s num den).IsProper := by
  have hfinite : ofFraction s num den ≠ infinite s := by
    rcases Nat.eq_zero_or_pos num with rfl | hnum
    · exact nofun
    · have hpower : (0 : ℚ) < 2 ^ greatestExponent := zpow_pos two_pos _
      have hgreatest : (num : ℚ) / den ≤ (2 ^ 53 - 1) * 2 ^ greatestExponent := by
        have hm : (m : ℚ) + 1 ≤ 2 ^ 53 := by exact_mod_cast hp.lt
        calc (num : ℚ) / den ≤ m * 2 ^ e := h
          _ ≤ (2 ^ 53 - 1) * 2 ^ greatestExponent := by
            apply mul_le_mul _ (zpow_le_zpow_right₀ one_le_two hp.high) (by positivity)
              (by norm_num)
            linarith
      have hunit : unitExponent num den ≤ greatestExponent :=
        unitExponent_le hnum hden (by decide) (by linarith)
      rw [ofFraction_eq s hnum.ne']
      apply carried_ne_infinite hunit
      -- with the greatest exponent there is no room for a carry
      intro hfull
      by_contra hge
      have hnear := (units_near num hden).1
      rw [hfull, le_antisymm hunit (not_lt.mp hge)] at hnear
      push_cast at hnear
      linarith
  rcases ofFraction_cases s num den with hx | ⟨m', e', hx⟩
  · exact absurd hx hfinite
  · exact ⟨s, m', e', hx, (ofFraction_eq_finite hden hx).2.1⟩

/-! ## Decimals -/

/-- A number with `l` digits lies in `[10 ^ (l - 1), 10 ^ l)`. -/
theorem toDigits_bounds (n : ℕ) (hn : 0 < n) :
    10 ^ (Nat.toDigits 10 n).length ≤ 10 * n ∧ n < 10 ^ (Nat.toDigits 10 n).length := by
  induction n using Url.toDigits_induction (show 1 < 10 by decide) with
  | digit d hd =>
    rw [Nat.toDigits_of_lt_base hd, List.length_singleton]
    omega
  | more n hge ih =>
    obtain ⟨hlow, hhigh⟩ := ih (by omega)
    rw [Nat.toDigits_of_base_le (by decide) hge, List.length_append, List.length_singleton,
      Nat.pow_succ]
    omega

/-- `toDigits_bounds` for `d * 10 ^ k`. -/
theorem decimal_bounds {d : ℕ} (hd : 0 < d) (k : ℤ) :
    (10 : ℚ) ^ (k + (Nat.toDigits 10 d).length) ≤ 10 * (d * 10 ^ k) ∧
      (d : ℚ) * 10 ^ k < 10 ^ (k + (Nat.toDigits 10 d).length) := by
  have hpower : (0 : ℚ) < 10 ^ k := zpow_pos (by norm_num) k
  obtain ⟨hlow, hhigh⟩ := toDigits_bounds d hd
  have hlow' : (10 : ℚ) ^ (Nat.toDigits 10 d).length ≤ 10 * d := by exact_mod_cast hlow
  have hhigh' : (d : ℚ) < 10 ^ (Nat.toDigits 10 d).length := by exact_mod_cast hhigh
  rw [zpow_add₀ (by norm_num), zpow_natCast]
  constructor
  · calc (10 : ℚ) ^ k * 10 ^ (Nat.toDigits 10 d).length ≤ 10 ^ k * (10 * d) := by gcongr
      _ = 10 * (d * 10 ^ k) := by ring
  · calc (d : ℚ) * 10 ^ k < 10 ^ (Nat.toDigits 10 d).length * 10 ^ k := by gcongr
      _ = 10 ^ k * 10 ^ (Nat.toDigits 10 d).length := by ring

/-- All doubles lie below `10 ^ 400`. -/
private theorem le_largeDecimal : 10 * (2 ^ 53 * 2 ^ greatestExponent) ≤ (10 : ℚ) ^ (401 : ℤ) := by
  have hpower : 2 ^ 1024 ≤ 10 ^ 400 := by decide +kernel
  have hcast : ((2 ^ 1024 : ℕ) : ℚ) ≤ ((10 ^ 400 : ℕ) : ℚ) := Nat.cast_le.mpr hpower
  rw [Nat.cast_pow, Nat.cast_pow] at hcast
  calc (10 : ℚ) * (2 ^ 53 * 2 ^ greatestExponent) = 10 * 2 ^ 1024 := by
        show (10 : ℚ) * (2 ^ 53 * 2 ^ ((971 : ℕ) : ℤ)) = 10 * 2 ^ 1024
        rw [zpow_natCast, ← pow_add]
    _ ≤ 10 * 10 ^ 400 := by
        apply mul_le_mul_of_nonneg_left _ (by norm_num)
        exact hcast
    _ = 10 ^ (401 : ℤ) := (pow_succ' (10 : ℚ) 400).symm

/-- Half of the least double is above `10 ^ (-400)`. -/
private theorem smallDecimal_le : (10 : ℚ) ^ (-400 : ℤ) ≤ 2 ^ leastExponent / 2 := by
  have hpower : 2 ^ 1075 ≤ 10 ^ 400 := by decide +kernel
  have hcast : ((2 ^ 1075 : ℕ) : ℚ) ≤ ((10 ^ 400 : ℕ) : ℚ) := Nat.cast_le.mpr hpower
  rw [Nat.cast_pow, Nat.cast_pow] at hcast
  calc (10 : ℚ) ^ (-400 : ℤ) = (10 ^ 400)⁻¹ := by
        show (10 : ℚ) ^ (-((400 : ℕ) : ℤ)) = (10 ^ 400)⁻¹
        rw [zpow_neg, zpow_natCast]
    _ ≤ (2 ^ 1075)⁻¹ := inv_anti₀ (by positivity) hcast
    _ = 2 ^ leastExponent / 2 := by
        show _ = (2 : ℚ) ^ (-((1074 : ℕ) : ℤ)) / 2
        rw [zpow_neg, zpow_natCast, pow_succ, mul_inv, div_eq_mul_inv]

/-- Between these bounds `ofDecimal` is `ofFraction`. -/
theorem ofDecimal_eq (s : Bool) {d : ℕ} (hd : 0 < d) {k : ℤ}
    (hlow : -400 ≤ k + (Nat.toDigits 10 d).length)
    (hhigh : k + (Nat.toDigits 10 d).length ≤ 400) :
    ofDecimal s d k = ofFraction s (raised 10 d k).1 (raised 10 d k).2 := by
  unfold ofDecimal
  rw [if_neg hd.ne', if_neg (not_lt.mpr hhigh), if_neg (not_lt.mpr hlow)]
  cases k <;> rfl

/-- `ofDecimal` rounds what is `Near` a double to the double. -/
theorem ofDecimal_of_near (s : Bool) {d : ℕ} (hd : 0 < d) {k : ℤ} (hm : 0 < m) (hp : Proper m e)
    (h : Near m e (d * 10 ^ k)) : ofDecimal s d k = finite s m e := by
  obtain ⟨hlow, hhigh⟩ := decimal_bounds hd k
  -- all doubles lie far within the sizes that are decided by the digits alone
  have hsize_low : -400 ≤ k + (Nat.toDigits 10 d).length := by
    by_contra hlt
    have hten : (10 : ℚ) ^ (k + (Nat.toDigits 10 d).length) ≤ 10 ^ (-400 : ℤ) :=
      zpow_le_zpow_right₀ (by norm_num) (by omega)
    have htwo : (2 : ℚ) ^ leastExponent ≤ 2 ^ e := zpow_le_zpow_right₀ one_le_two hp.low
    have hnear := h.ge (Nat.succ_le_of_lt hm)
    push_cast at hnear
    linarith [smallDecimal_le]
  have hsize_high : k + (Nat.toDigits 10 d).length ≤ 400 := by
    by_contra hlt
    have hten : (10 : ℚ) ^ (401 : ℤ) ≤ 10 ^ (k + (Nat.toDigits 10 d).length) :=
      zpow_le_zpow_right₀ (by norm_num) (by omega)
    have htwo : (2 : ℚ) ^ e ≤ 2 ^ greatestExponent := zpow_le_zpow_right₀ one_le_two hp.high
    have hnear := h.lt hp
    linarith [le_largeDecimal]
  have hvalue : ((raised 10 d k).1 : ℚ) / (raised 10 d k).2 = d * 10 ^ k := by
    have hraised := raised_value 10 d k
    push_cast at hraised
    exact hraised
  have hpos := raised_pos (show 0 < 10 by decide) d k
  have hnum : 0 < (raised 10 d k).1 := by
    cases k with
    | ofNat k => exact Nat.mul_pos hd (Nat.pow_pos (by decide))
    | negSucc k => exact hd
  rw [ofDecimal_eq s hd hsize_low hsize_high]
  apply ofFraction_of_near s hnum hpos hp
  rw [hvalue]
  exact h

/-- What `ofDecimal` returns is `Proper`, at most half a unit of its last place away. -/
theorem ofDecimal_eq_finite {s s' : Bool} {d : ℕ} {k : ℤ} (h : ofDecimal s d k = finite s' m e) :
    s' = s ∧ Proper m e ∧ |(m : ℚ) * 2 ^ e - d * 10 ^ k| ≤ 2 ^ e / 2 := by
  have hzero : Proper 0 leastExponent := ⟨by norm_num, .inr rfl, le_rfl, by decide⟩
  rcases Nat.eq_zero_or_pos d with rfl | hd
  · have heq : ofDecimal s 0 k = finite s 0 leastExponent := rfl
    rw [heq] at h
    injection h with hs hm he
    subst hs hm he
    refine ⟨rfl, hzero, ?_⟩
    rw [Nat.cast_zero, zero_mul, zero_mul, sub_zero, abs_zero]
    positivity
  · by_cases hlow : -400 ≤ k + (Nat.toDigits 10 d).length
    · by_cases hhigh : k + (Nat.toDigits 10 d).length ≤ 400
      · have hvalue := raised_value 10 d k
        push_cast at hvalue
        rw [ofDecimal_eq s hd hlow hhigh] at h
        rw [← hvalue]
        exact ofFraction_eq_finite (raised_pos (by decide) d k) h
      · unfold ofDecimal at h
        rw [if_neg hd.ne', if_pos (not_le.mp hhigh)] at h
        cases h
    · -- what is too small for any double is less than half of the least one
      unfold ofDecimal at h
      rw [if_neg hd.ne', if_neg (by omega), if_pos (not_le.mp hlow)] at h
      injection h with hs hm he
      subst hs hm he
      refine ⟨rfl, hzero, ?_⟩
      have hten : (10 : ℚ) ^ (k + (Nat.toDigits 10 d).length) ≤ 10 ^ (-400 : ℤ) :=
        zpow_le_zpow_right₀ (by norm_num) (by omega)
      have hpos : 0 ≤ (d : ℚ) * 10 ^ k := by positivity
      rw [Nat.cast_zero, zero_mul, zero_sub, abs_neg, abs_of_nonneg hpos]
      linarith [(decimal_bounds hd k).2, smallDecimal_le]

/-- A decimal from one upwards is not rounded to zero. -/
theorem mantissa_ne_zero {s s' : Bool} {d : ℕ} {k : ℤ} (h : ofDecimal s d k = finite s' m e)
    (hone : (1 : ℚ) ≤ d * 10 ^ k) : m ≠ 0 := by
  rintro rfl
  obtain ⟨-, hp, hnear⟩ := ofDecimal_eq_finite h
  -- a zero has the least exponent, and half of its unit is far below one
  have he : e = leastExponent := hp.normal.resolve_left (by decide)
  have hunit : (2 : ℚ) ^ e ≤ 1 := by
    rw [he]
    exact zpow_le_one_of_nonpos₀ one_le_two (by decide)
  rw [Nat.cast_zero, zero_mul, zero_sub, abs_neg, abs_of_nonneg (by positivity)] at hnear
  linarith

end Binary64

end Interlock

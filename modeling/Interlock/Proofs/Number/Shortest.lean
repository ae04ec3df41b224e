import Interlock.Proofs.Number.Rounding
import Mathlib

/-!
# The shortest digits are read back

`shortest m e` searches thirty powers of ten for digits in `Interval.of m e`, whose reals are those
`Near` the double (`holds_iff`). The search succeeds, because the last power is finer than the grid
that the double stands on (`pick?_of_fine`). So `shortest_near`: the digits are rounded to the
double again.
-/

namespace Interlock.Number

open Binary64

variable {m : ℕ} {e : ℤ}

/-! ## The interval of a double -/

/-- `scaled 10 num den k` against `d`, as rational numbers. -/
theorem scaled_le_iff (num : ℕ) {den : ℕ} (hden : 0 < den) (d : ℕ) (k : ℤ) :
    ((scaled 10 num den k).1 ≤ d * (scaled 10 num den k).2 ↔ (num : ℚ) / den ≤ d * 10 ^ k) ∧
      (d * (scaled 10 num den k).2 ≤ (scaled 10 num den k).1 ↔ d * 10 ^ k ≤ (num : ℚ) / den) := by
  have hpower : (0 : ℚ) < 10 ^ k := zpow_pos (by norm_num) k
  have hvalue := scaled_value 10 num den k
  have hpos := scaled_pos (show 0 < 10 by decide) num hden k
  push_cast at hvalue
  generalize scaled 10 num den k = s at hvalue hpos
  have hpos' : (0 : ℚ) < s.2 := by exact_mod_cast hpos
  constructor
  · rw [← div_le_iff₀ hpower, ← hvalue, div_le_iff₀ hpos']
    exact_mod_cast Iff.rfl
  · rw [← le_div_iff₀ hpower, ← hvalue, le_div_iff₀ hpos']
    exact_mod_cast Iff.rfl

/-- The values of `mid`, `low` and `high` of `Interval.of m e`. -/
theorem interval_values (hm : 0 < m) (e : ℤ) :
    ((Interval.of m e).mid : ℚ) / (Interval.of m e).den = m * 2 ^ e ∧
      ((Interval.of m e).low : ℚ) / (Interval.of m e).den = (m - reach m e) * 2 ^ e ∧
      ((Interval.of m e).high : ℚ) / (Interval.of m e).den = (m + 1 / 2) * 2 ^ e := by
  have hquarter : (((fraction 1 (e - 2)).1 : ℕ) : ℚ) / (fraction 1 (e - 2)).2 = 2 ^ e / 4 := by
    rw [fraction_value, zpow_sub₀ (by norm_num)]
    norm_num
  -- in quarters of a unit the reach is a natural number
  obtain ⟨near, hnear, hlow⟩ : ∃ near : ℕ, (near : ℚ) / 4 = reach m e ∧ near ≤ 2 ∧
      (Interval.of m e).low = (4 * m - near) * (fraction 1 (e - 2)).1 := by
    by_cases hfine : m = Nat.pow 2 52 ∧ leastExponent < e
    · refine ⟨1, ?_, by omega, by unfold Interval.of; rw [if_pos hfine]⟩
      rw [show reach m e = 1 / 4 from if_pos hfine]
      norm_num
    · refine ⟨2, ?_, le_rfl, by unfold Interval.of; rw [if_neg hfine]⟩
      rw [show reach m e = 1 / 2 from if_neg hfine]
      norm_num
  have hmid : (Interval.of m e).mid = 4 * m * (fraction 1 (e - 2)).1 := rfl
  have hhigh : (Interval.of m e).high = (4 * m + 2) * (fraction 1 (e - 2)).1 := rfl
  have hden : (Interval.of m e).den = (fraction 1 (e - 2)).2 := rfl
  have hsub : ((4 * m - near : ℕ) : ℚ) = 4 * m - near := by
    rw [Nat.cast_sub (by omega)]
    push_cast
    rfl
  rw [hmid, hlow.2, hhigh, hden, ← hnear]
  simp only [Nat.cast_mul, hsub, mul_div_assoc, hquarter]
  push_cast
  refine ⟨by ring, by ring, by ring⟩

theorem den_pos (m : ℕ) (e : ℤ) : 0 < (Interval.of m e).den := fraction_pos 1 (e - 2)

/-- `Interval.holds d k` if and only if `d * 10 ^ k` is `Near` the double. -/
theorem holds_iff (hm : 0 < m) (e : ℤ) (d : ℕ) (k : ℤ) :
    (Interval.of m e).holds d k = true ↔ Near m e (d * 10 ^ k) := by
  obtain ⟨-, hlow, hhigh⟩ := interval_values hm e
  have hbelow := scaled_le_iff (Interval.of m e).low (den_pos m e) d k
  have habove := scaled_le_iff (Interval.of m e).high (den_pos m e) d k
  rw [hlow] at hbelow
  rw [hhigh] at habove
  have hclosed : (Interval.of m e).closed = decide (m % 2 = 0) := rfl
  unfold Interval.holds
  simp only [scaleDownTen_eq, hclosed]
  by_cases heven : m % 2 = 0
  · rw [if_pos (decide_eq_true heven), Bool.and_eq_true, decide_eq_true_eq, decide_eq_true_eq,
      hbelow.1, habove.2]
    constructor
    · rintro ⟨hl, hh⟩
      exact ⟨hl, hh, fun hodd => by omega⟩
    · intro h
      exact ⟨h.above, h.below⟩
  · rw [if_neg (by simpa using heven), Bool.and_eq_true, decide_eq_true_eq, decide_eq_true_eq,
      ← not_le, ← not_le, hbelow.2, habove.1, not_le, not_le]
    constructor
    · rintro ⟨hl, hh⟩
      exact ⟨hl.le, hh.le, fun _ => ⟨hl, hh⟩⟩
    · intro h
      exact h.ends (by omega)

/-! ## The search -/

variable {i : Interval}

/-- What `pick?` returns `holds`. -/
theorem Interval.holds_of_pick? {k : ℤ} {d : ℕ} (h : i.pick? k = some d) :
    i.holds d k = true := by
  unfold pick? at h
  dsimp only at h
  split at h
  · next hfloor hnext =>
    injection h with h
    subst h
    split
    · exact hfloor
    · split
      · exact hnext
      · split
        · exact hfloor
        · exact hnext
  · next hfloor _ =>
    injection h with h
    subst h
    exact hfloor
  · next _ hnext =>
    injection h with h
    subst h
    exact hnext
  · cases h

/-- `pick?` succeeds if the multiple at or below `mid` `holds`. -/
theorem Interval.pick?_isSome {k : ℤ}
    (h : i.holds ((scaled 10 i.mid i.den k).1 / (scaled 10 i.mid i.den k).2) k = true) :
    ∃ d, i.pick? k = some d := by
  unfold pick?
  simp only [scaleDownTen_eq, h]
  split
  · exact ⟨_, rfl⟩
  · exact ⟨_, rfl⟩
  · next hfloor _ => cases hfloor
  · next hfloor _ => cases hfloor

/-- What `search` returns `holds`, if `pick?` succeeds at the last power. -/
theorem Interval.holds_search (steps : ℕ) (k : ℤ) (h : ∃ d, i.pick? (k - steps) = some d) :
    i.holds (i.search (steps + 1) k).digits (i.search (steps + 1) k).exponent = true := by
  induction steps generalizing k with
  | zero =>
    obtain ⟨d, hd⟩ := h
    rw [Nat.cast_zero, sub_zero] at hd
    unfold search
    rw [hd]
    exact holds_of_pick? hd
  | succ steps ih =>
    unfold search
    cases hpick : i.pick? k with
    | some d => exact holds_of_pick? hpick
    | none =>
      apply ih
      rw [show k - 1 - (steps : ℤ) = k - (steps + 1 : ℕ) by push_cast; ring]
      exact h

/-- `10 ^ t ≤ 2 ^ n`, from a linear bound on the exponents. -/
theorem ten_zpow_le {t n : ℤ} (hpos : 0 ≤ t → 10 * t ≤ 3 * n) (hneg : t < 0 → 13 * t ≤ 4 * n) :
    (10 : ℚ) ^ t ≤ 2 ^ n := by
  have htwo : (0 : ℚ) ≤ 2 ^ n := (zpow_pos two_pos n).le
  rcases le_or_gt 0 t with ht | ht
  · -- a thousand is less than `2 ^ 10`
    apply le_of_pow_le_pow_left₀ (n := 3) (by decide) htwo
    calc ((10 : ℚ) ^ t) ^ 3 = 1000 ^ t := by
          rw [← zpow_natCast, ← zpow_mul, mul_comm, zpow_mul]
          norm_num
      _ ≤ 1024 ^ t := zpow_le_zpow_left₀ ht (by norm_num) (by norm_num)
      _ = 2 ^ (10 * t) := by
          rw [zpow_mul]
          norm_num
      _ ≤ 2 ^ (n * 3) := zpow_le_zpow_right₀ one_le_two (by omega)
      _ = (2 ^ n) ^ 3 := by
          rw [zpow_mul]
          norm_num
  · -- ten thousand is more than `2 ^ 13`
    apply le_of_pow_le_pow_left₀ (n := 4) (by decide) htwo
    obtain ⟨p, rfl⟩ : ∃ p : ℕ, t = -p := ⟨t.natAbs, by omega⟩
    calc ((10 : ℚ) ^ (-p : ℤ)) ^ 4 = (10000 ^ p)⁻¹ := by
          rw [zpow_neg, zpow_natCast, inv_pow, ← pow_mul, mul_comm, pow_mul]
          norm_num
      _ ≤ (8192 ^ p)⁻¹ := by
          apply inv_anti₀ (by positivity)
          exact pow_le_pow_left₀ (by norm_num) (by norm_num) p
      _ = 2 ^ (13 * (-p : ℤ)) := by
          rw [zpow_mul, zpow_neg, zpow_natCast]
          norm_num
      _ ≤ 2 ^ (n * 4) := zpow_le_zpow_right₀ one_le_two (by omega)
      _ = (2 ^ n) ^ 4 := by
          rw [zpow_mul]
          norm_num

/-- `pick?` succeeds at powers of ten up to a quarter of the unit. -/
theorem pick?_of_fine (hm : 0 < m) {k : ℤ} (hk : (10 : ℚ) ^ k ≤ 2 ^ e / 4) :
    ∃ d, (Interval.of m e).pick? k = some d := by
  have hpower : (0 : ℚ) < 2 ^ e := zpow_pos two_pos e
  have hten : (0 : ℚ) < 10 ^ k := zpow_pos (by norm_num) k
  have hpos := scaled_pos (show 0 < 10 by decide) (Interval.of m e).mid (den_pos m e) k
  have hvalue := scaled_value 10 (Interval.of m e).mid (Interval.of m e).den k
  rw [(interval_values hm e).1] at hvalue
  push_cast at hvalue
  apply Interval.pick?_isSome
  rw [holds_iff hm]
  -- the multiple at or below the middle is less than the power of ten away from it
  obtain ⟨hfloor, hnext⟩ := (quotient_eq_iff hpos _).mp
    (rfl : (scaled 10 (Interval.of m e).mid (Interval.of m e).den k).1 /
      (scaled 10 (Interval.of m e).mid (Interval.of m e).den k).2 = _)
  rw [hvalue, le_div_iff₀ hten] at hfloor
  rw [hvalue, div_lt_iff₀ hten] at hnext
  generalize (scaled 10 (Interval.of m e).mid (Interval.of m e).den k).1 /
    (scaled 10 (Interval.of m e).mid (Interval.of m e).den k).2 = d at hfloor hnext ⊢
  have hreach : 2 ^ e / 4 ≤ reach m e * 2 ^ e := by
    unfold reach
    split <;> linarith
  have habove : (m - reach m e) * 2 ^ e < (d : ℚ) * 10 ^ k := by linarith
  have hbelow : (d : ℚ) * 10 ^ k < (m + 1 / 2) * 2 ^ e := by linarith
  exact ⟨habove.le, hbelow.le, fun _ => ⟨habove, hbelow⟩⟩

/-- `shortest m e` is `Near` the double. -/
theorem shortest_near (hm : 0 < m) (hp : Proper m e) :
    Near m e ((shortest m e).digits * 10 ^ (shortest m e).exponent) := by
  rw [← holds_iff hm]
  apply Interval.holds_search 29
  apply pick?_of_fine hm
  -- the last of the thirty powers is fine enough for every exponent
  have hlog : m.log2 < 53 := (Nat.log2_lt hm.ne').mpr hp.lt
  have hlow : -1074 ≤ e := hp.low
  have hhigh : e ≤ 971 := hp.high
  calc (10 : ℚ) ^ (((m.log2 : ℤ) + 1 + e) * 30103 / 100000 + 2 - (29 : ℕ)) ≤ 2 ^ (e - 2) :=
        ten_zpow_le (by omega) (by omega)
    _ = 2 ^ e / 4 := by
        rw [zpow_sub₀ (by norm_num)]
        norm_num

theorem shortest_pos (hm : 0 < m) (hp : Proper m e) : 0 < (shortest m e).digits := by
  have hnear := (shortest_near hm hp).ge (Nat.succ_le_of_lt hm)
  by_contra hzero
  rw [Nat.eq_zero_of_not_pos hzero] at hnear
  have hpower : (0 : ℚ) < 2 ^ e := zpow_pos two_pos e
  push_cast at hnear
  linarith

end Interlock.Number

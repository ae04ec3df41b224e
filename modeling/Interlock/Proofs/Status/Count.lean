import Interlock.Proofs.Json.Number
import Interlock.Proofs.Number.Fraction
import Interlock.Proofs.Reading
import Mathlib

/-!
# What a count is

A document stands for an `amount?` if it is a number, or a text that writes one. `count?` is the
whole part of the amount (`count_is_whole_part`), as long as that is not negative and has 64 bits.
The bound is compared as a double, where the largest number of 64 bits is rounded up, so the amount
`2 ^ 64` itself gets a count, the largest one (`count_of_two_pow_64`). `code?` is too short for
that.
-/

namespace Interlock

open Text

/-! ## Whole parts -/

namespace Binary64

variable {s : Bool} {m : ℕ} {e : ℤ}

/-- `wholePart?` of a negative double is `none`. -/
theorem negative_cases (hm : m ≠ 0) (e : ℤ) :
    (finite true m e).wholePart? = none ∧ ∃ q, (finite true m e).value? = some q ∧ q < 0 := by
  constructor
  · exact if_pos (by simpa using hm)
  · refine ⟨-1 * m * 2 ^ e, rfl, ?_⟩
    have hm' : (0 : ℚ) < m := by positivity
    have hproduct : (0 : ℚ) < m * 2 ^ e := mul_pos hm' (zpow_pos two_pos e)
    linarith

/-- `wholePart?` of any other double is the quotient of its `fraction`. -/
theorem nonneg_cases (h : ¬ (s = true ∧ m ≠ 0)) (e : ℤ) :
    (finite s m e).wholePart? =
        some ((fraction m e).1 / (fraction m e).2, (fraction m e).1 % (fraction m e).2 == 0) ∧
      (finite s m e).value? = some (((fraction m e).1 : ℚ) / (fraction m e).2) := by
  constructor
  · exact if_neg (by simpa using h)
  · rw [fraction_value]
    by_cases hs : s = true
    · have hm : m = 0 := by_contra fun hm => h ⟨hs, hm⟩
      simp [value?, hm]
    · simp [value?, hs]

/-- `wholePart?` is `some (n, whole)` if and only if `value?` lies in `[n, n + 1)`, and is `n` if
`whole`. -/
theorem wholePart?_eq_some_iff (x : Binary64) (n : ℕ) (whole : Bool) :
    x.wholePart? = some (n, whole) ↔
      ∃ q, x.value? = some q ∧ n ≤ q ∧ q < n + 1 ∧ (whole = true ↔ q = n) := by
  cases x with
  | infinite | nan => simp [wholePart?, value?]
  | finite s m e =>
    -- a negative zero is not negative
    by_cases hsign : s = true ∧ m ≠ 0
    · obtain ⟨rfl, hm⟩ := hsign
      obtain ⟨hnone, q, hvalue, hneg⟩ := negative_cases hm e
      rw [hnone, hvalue]
      refine iff_of_false (by simp) ?_
      rintro ⟨q', hq, hlow, -⟩
      cases hq
      exact absurd hneg (not_lt.mpr (le_trans n.cast_nonneg hlow))
    · obtain ⟨hpart, hvalue⟩ := nonneg_cases hsign e
      have hpos := fraction_pos m e
      rw [hpart, hvalue]
      simp only [Option.some.injEq, Prod.mk.injEq, exists_eq_left']
      rw [← and_assoc, ← Number.quotient_eq_iff hpos]
      refine and_congr_right ?_
      rintro rfl
      rw [← Number.remainder_eq_zero_iff hpos]
      cases whole <;> simp

end Binary64

/-! ## Amounts -/

namespace Reading

/-- The number that a document stands for where a count is expected. A text is trimmed and read as a
whole number of 64 bits, or else as a double. -/
def amount? : Json → Option ℚ
  | .number n => n.value?
  | .string s =>
    match Number.readWord? (trim s) with
    | some n => some n
    | none => (Number.readBinary64? (trim s)).bind Binary64.value?
  | _ => none

/-- The count for the amount `q` is `n`: the whole part of `q`, from 0 and below `2 ^ 64`, or `2 ^
64 - 1` for `2 ^ 64`. -/
def Counts (q : ℚ) (n : ℕ) : Prop :=
  (n ≤ q ∧ q < n + 1 ∧ q < 2 ^ 64) ∨ (q = 2 ^ 64 ∧ n = 2 ^ 64 - 1)

theorem Counts.nonneg {q : ℚ} {n : ℕ} (h : Counts q n) : 0 ≤ q := by
  rcases h with ⟨hlow, -⟩ | ⟨rfl, -⟩
  · exact le_trans n.cast_nonneg hlow
  · norm_num

/-- Below `2 ^ 64`, `Counts` is the whole part. -/
theorem counts_iff_of_lt {q : ℚ} {w : ℕ} (hlow : w ≤ q) (hhigh : q < w + 1) (hw : w < 2 ^ 64)
    (n : ℕ) : Counts q n ↔ w = n := by
  have hq : q < 2 ^ 64 := lt_of_lt_of_le hhigh (by exact_mod_cast hw)
  constructor
  · rintro (⟨hn, hn', -⟩ | ⟨hend, -⟩)
    · have hle : w < n + 1 := by exact_mod_cast lt_of_le_of_lt hlow hn'
      have hge : n < w + 1 := by exact_mod_cast lt_of_le_of_lt hn hhigh
      omega
    · exact absurd hend hq.ne
  · rintro rfl
    exact .inl ⟨hlow, hhigh, hq⟩

/-- From `2 ^ 64`, only `2 ^ 64` itself `Counts`. -/
theorem counts_iff_of_ge {q : ℚ} (hq : 2 ^ 64 ≤ q) (n : ℕ) :
    Counts q n ↔ q = 2 ^ 64 ∧ 2 ^ 64 - 1 = n := by
  constructor
  · rintro (⟨-, -, hlt⟩ | ⟨hend, rfl⟩)
    · exact absurd hq (not_le.mpr hlt)
    · exact ⟨hend, rfl⟩
  · rintro ⟨hend, rfl⟩
    exact .inr ⟨hend, rfl⟩

theorem counts_natCast {k : ℕ} (hk : k < 2 ^ 64) (n : ℕ) : Counts k n ↔ k = n :=
  counts_iff_of_lt le_rfl (lt_add_one _) hk n

/-! ## Counts -/

/-- The test of `countOfReal?` at the bound: the amount is `2 ^ 64`, with nothing cut off. -/
theorem whole_two_pow_64_iff {q : ℚ} {w : ℕ} {whole : Bool} (hlow : w ≤ q) (hw : ¬ w < 2 ^ 64)
    (hexact : whole = true ↔ q = w) : (decide (w = 2 ^ 64) && whole) = true ↔ q = 2 ^ 64 := by
  rw [Bool.and_eq_true, decide_eq_true_eq, hexact]
  constructor
  · rintro ⟨rfl, hq⟩
    rw [hq]
    norm_num
  · rintro rfl
    have hle : w ≤ 2 ^ 64 := by exact_mod_cast hlow
    have heq : w = 2 ^ 64 := le_antisymm hle (not_lt.mp hw)
    exact ⟨heq, by rw [heq]; norm_num⟩

/-- `countOfReal?` is `Counts` of `value?`. -/
theorem countOfReal?_eq_some_iff (x : Binary64) (n : ℕ) :
    countOfReal? x = some n ↔ ∃ q, x.value? = some q ∧ Counts q n := by
  unfold countOfReal?
  cases hwhole : x.wholePart? with
  | none =>
    refine iff_of_false nofun ?_
    rintro ⟨q, hq, hcount⟩
    -- what is not negative has a whole part
    have hsome := (x.wholePart?_eq_some_iff ⌊q⌋₊ (decide (q = ⌊q⌋₊))).mpr
      ⟨q, hq, Nat.floor_le hcount.nonneg, Nat.lt_floor_add_one q, decide_eq_true_iff⟩
    rw [hwhole] at hsome
    cases hsome
  | some p =>
    obtain ⟨w, whole⟩ := p
    obtain ⟨q, hq, hlow, hhigh, hexact⟩ := (x.wholePart?_eq_some_iff w whole).mp hwhole
    simp only [hq, Option.some.injEq, exists_eq_left']
    show (if w < 2 ^ 64 then some w
      else if (decide (w = 2 ^ 64) && whole) = true then some (2 ^ 64 - 1) else none) = some n ↔ _
    by_cases hlt : w < 2 ^ 64
    · rw [if_pos hlt, Option.some.injEq, counts_iff_of_lt hlow hhigh hlt]
    · have hw : (2 ^ 64 : ℚ) ≤ w := by exact_mod_cast not_lt.mp hlt
      have hend := whole_two_pow_64_iff hlow hlt hexact
      rw [if_neg hlt, counts_iff_of_ge (le_trans hw hlow)]
      by_cases hq' : q = 2 ^ 64
      · rw [if_pos (hend.mpr hq'), Option.some.injEq]
        exact (and_iff_right hq').symm
      · rw [if_neg (mt hend.mp hq')]
        exact iff_of_false nofun fun h => hq' h.1

/-- `readWord?` returns numbers below `2 ^ 64`. -/
theorem lt_of_readWord? {s : String} {n : ℕ} (h : Number.readWord? s = some n) : n < 2 ^ 64 := by
  unfold Number.readWord? at h
  exact of_decide_eq_true (Option.filter_eq_some_iff.mp h).2

/-- `countOfText?` is `Counts` of `amount?`. -/
theorem countOfText?_eq_some_iff (s : String) (n : ℕ) :
    countOfText? s = some n ↔ ∃ q, amount? (.string s) = some q ∧ Counts q n := by
  unfold countOfText? amount?
  dsimp only
  cases hword : Number.readWord? (trim s) with
  | some k =>
    have hk := lt_of_readWord? hword
    simp only [Option.some_or, Option.some.injEq, exists_eq_left']
    exact (counts_natCast hk n).symm
  | none =>
    rw [Option.none_or]
    cases Number.readBinary64? (trim s) with
    | none => simp
    | some x => exact countOfReal?_eq_some_iff x n

/-- `count?` is `Counts` of `amount?`, for numbers that `Fits`. -/
theorem count?_eq_some_iff {v : Json} (hv : ∀ m, v = .number m → m.Fits) (n : ℕ) :
    count? (some v) = some n ↔ ∃ q, amount? v = some q ∧ Counts q n := by
  cases v with
  | null | bool | array | object =>
    refine iff_of_false nofun ?_
    rintro ⟨q, hq, -⟩
    cases hq
  | string s => exact countOfText?_eq_some_iff s n
  | number m =>
    cases hv m rfl with
    | real x _ => exact countOfReal?_eq_some_iff x n
    | whole i _ hhigh =>
      have hamount : amount? (.number (.whole i)) = some (i : ℚ) := rfl
      rw [hamount]
      simp only [Option.some.injEq, exists_eq_left']
      cases i with
      | ofNat k =>
        rw [Int.ofNat_eq_natCast] at hhigh ⊢
        have hk : k < 2 ^ 64 := by exact_mod_cast hhigh
        rw [Int.cast_natCast, counts_natCast hk]
        exact Option.some_inj
      | negSucc k =>
        have hneg : ((Int.negSucc k : ℤ) : ℚ) < 0 := by exact_mod_cast Int.negSucc_lt_zero k
        exact iff_of_false nofun fun h => absurd h.nonneg (not_le.mpr hneg)

/-- `count?_eq_some_iff` for every value in a document that `readBytes` returned. -/
theorem count?_eq_some_iff_of_readBytes {bytes : List UInt8} {j v : Json}
    (h : Json.readBytes bytes = .ok j) (hv : v.Within j) (n : ℕ) :
    count? (some v) = some n ↔ ∃ q, amount? v = some q ∧ Counts q n := by
  refine count?_eq_some_iff ?_ n
  rintro m rfl
  exact Json.fits_of_readBytes h hv

/-- Below `2 ^ 16`, `Counts` is the whole part without exception. -/
theorem counts_and_lt_iff (q : ℚ) (n : ℕ) :
    Counts q n ∧ n < 2 ^ 16 ↔ n ≤ q ∧ q < n + 1 ∧ n < 2 ^ 16 := by
  constructor
  · rintro ⟨⟨hlow, hhigh, -⟩ | ⟨-, rfl⟩, hn⟩
    · exact ⟨hlow, hhigh, hn⟩
    · exact absurd hn (by decide)
  · rintro ⟨hlow, hhigh, hn⟩
    have hbound : (n : ℚ) + 1 ≤ 2 ^ 64 := by exact_mod_cast (by omega : n + 1 ≤ 2 ^ 64)
    exact ⟨.inl ⟨hlow, hhigh, lt_of_lt_of_le hhigh hbound⟩, hn⟩

/-- `count?` is `n` if and only if `Counts q n` for the `amount?` `q`; `code?` is `n` if and only if
`q` lies in `[n, n + 1)` and `n < 2 ^ 16`. -/
theorem count_is_whole_part (v : Json) (hv : ∀ m, v = .number m → m.Fits) (n : ℕ) :
    (count? (some v) = some n ↔ ∃ q, amount? v = some q ∧ Counts q n) ∧
      (code? (some v) = some n ↔ ∃ q, amount? v = some q ∧ n ≤ q ∧ q < n + 1 ∧ n < 2 ^ 16) := by
  refine ⟨count?_eq_some_iff hv n, ?_⟩
  have hfilter : code? (some v) = some n ↔ count? (some v) = some n ∧ n < 2 ^ 16 := by
    unfold code?
    rw [Option.filter_eq_some_iff, decide_eq_true_eq]
    exact Iff.rfl
  rw [hfilter, count?_eq_some_iff hv, ← exists_and_right]
  refine exists_congr fun q => ?_
  rw [and_assoc, counts_and_lt_iff]

/-- The text ` 3.5 ` is read through a double, and the number `503` is a word. -/
theorem count_is_whole_part_of_text_and_number :
    count? (some (.string " 3.5 ")) = some 3 ∧ code? (some (.string " 3.5 ")) = some 3 ∧
      count? (some (.number (.whole 503))) = some 503 ∧
      code? (some (.number (.whole 503))) = some 503 := by
  have htext : amount? (.string " 3.5 ") = some (7 / 2) := by decide +kernel
  have hnumber : amount? (.number (.whole 503)) = some 503 := by decide +kernel
  have hfits : ∀ m, Json.number (.whole 503) = .number m → m.Fits := by
    rintro m ⟨⟩
    exact .whole 503 (by decide) (by decide)
  obtain ⟨hcount, hcode⟩ := count_is_whole_part (.string " 3.5 ") nofun 3
  obtain ⟨hcount', hcode'⟩ := count_is_whole_part (.number (.whole 503)) hfits 503
  refine ⟨hcount.mpr ⟨7 / 2, htext, ?_⟩, hcode.mpr ⟨7 / 2, htext, ?_⟩,
    hcount'.mpr ⟨503, hnumber, ?_⟩, hcode'.mpr ⟨503, hnumber, ?_⟩⟩
  · exact .inl (by norm_num)
  · norm_num
  · exact .inl (by norm_num)
  · norm_num

/-- The number `2 ^ 64` has 65 bits, and `count?` is another number. -/
theorem count_of_two_pow_64 :
    ∃ v, Json.read? "18446744073709551616" = some v ∧ amount? v = some (2 ^ 64) ∧
      count? (some v) = some (2 ^ 64 - 1) := by
  have hread : (Json.read? "18446744073709551616").any (fun v =>
      amount? v = some (2 ^ 64) ∧ count? (some v) = some (2 ^ 64 - 1)) = true := by
    decide +kernel
  rw [Option.any_eq_true] at hread
  obtain ⟨v, hv, hcount⟩ := hread
  exact ⟨v, hv, of_decide_eq_true hcount⟩

end Reading

end Interlock

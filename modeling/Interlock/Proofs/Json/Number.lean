import Interlock.Json.Reader
import Interlock.Proofs.Number.Rounding
import Interlock.Proofs.Status.Written
import Mathlib

/-!
# The numbers of a document

A document holds two kinds of numbers (`Json.Number.Fits`): whole ones of 64 bits, with or without a
sign, and doubles with `IsProper`. Nothing else stands in a document that `readBytes` returns
(`fits_of_readBytes`): `scaleByTen` rounds a double in steps, and each step keeps `IsProper` or
gives up.
-/

namespace Interlock

open Text

/-- The numbers that a document can hold. -/
inductive Json.Number.Fits : Json.Number → Prop
  | whole (i : ℤ) (low : -2 ^ 63 ≤ i) (high : i < 2 ^ 64) : Fits (.whole i)
  | real (x : Binary64) (proper : x.IsProper) : Fits (.real x)

/-! ## Doubles that stay finite -/

namespace Binary64

theorem isProper_zero (s : Bool) : (zero s).IsProper :=
  ⟨s, 0, leastExponent, rfl, by norm_num, .inr rfl, le_rfl, by decide⟩

theorem IsProper.neg {x : Binary64} (h : x.IsProper) : x.neg.IsProper := by
  obtain ⟨s, m, e, rfl, hp⟩ := h
  exact ⟨!s, m, e, rfl, hp⟩

theorem isProper_ofNat {n : ℕ} (hn : n < 2 ^ 64) : (ofNat n).IsProper := by
  have hp : Proper (2 ^ 52) 12 := ⟨by norm_num, .inl le_rfl, by decide, by decide⟩
  apply isProper_ofFraction false Nat.one_pos hp
  have hn' : (n : ℚ) ≤ 2 ^ 64 := by exact_mod_cast hn.le
  calc (n : ℚ) / (1 : ℕ) = n := by rw [Nat.cast_one, div_one]
    _ ≤ 2 ^ 64 := hn'
    _ = ((2 ^ 52 : ℕ) : ℚ) * 2 ^ (12 : ℤ) := by norm_num

/-- `mul` keeps `IsProper` unless it is infinite. -/
theorem IsProper.mul {x y : Binary64} (hx : x.IsProper) (hy : y.IsProper)
    (h : (x.mul y).isInfinite = false) : (x.mul y).IsProper := by
  obtain ⟨s, m, e, rfl, -⟩ := hx
  obtain ⟨s', m', e', rfl, -⟩ := hy
  have hmul : (finite s m e).mul (finite s' m' e') =
      ofFraction (s != s') (fraction (m * m') (e + e')).1 (fraction (m * m') (e + e')).2 := rfl
  have hden := fraction_pos (m * m') (e + e')
  rw [hmul] at h ⊢
  rcases ofFraction_cases (s != s') (fraction (m * m') (e + e')).1
    (fraction (m * m') (e + e')).2 with hinf | ⟨m'', e'', hfinite⟩
  · rw [hinf] at h
    cases h
  · exact ⟨_, m'', e'', hfinite, (ofFraction_eq_finite hden hfinite).2.1⟩

/-- `div` by a double from one upwards keeps `IsProper`. -/
theorem IsProper.div {x : Binary64} (hx : x.IsProper) {s' : Bool} {m' : ℕ} {e' : ℤ}
    (h : (1 : ℚ) ≤ m' * 2 ^ e') : (x.div (finite s' m' e')).IsProper := by
  obtain ⟨s, m, e, rfl, hp⟩ := hx
  have hm' : 0 < m' := by
    by_contra hzero
    rw [Nat.eq_zero_of_not_pos hzero] at h
    norm_num at h
  have hdiv : (finite s m e).div (finite s' m' e') =
      ofFraction (s != s') (fraction m (e - e')).1 ((fraction m (e - e')).2 * m') :=
    if_neg hm'.ne'
  rw [hdiv]
  apply isProper_ofFraction _ (Nat.mul_pos (fraction_pos m (e - e')) hm') hp
  have hpower : (0 : ℚ) < 2 ^ e' := zpow_pos two_pos e'
  have hm'' : (0 : ℚ) < m' := by exact_mod_cast hm'
  calc ((fraction m (e - e')).1 : ℚ) / ((fraction m (e - e')).2 * m' : ℕ)
      = m * 2 ^ (e - e') / m' := by rw [Nat.cast_mul, ← div_div, fraction_value]
    _ = m * 2 ^ e / (m' * 2 ^ e') := by
        rw [zpow_sub₀ two_ne_zero]
        field_simp
    _ ≤ m * 2 ^ e := div_le_self (by positivity) h

end Binary64

namespace Json

open Binary64

/-- `powerOfTen k` is finite and at least one, up to `k = 308`. -/
theorem powerOfTen_cases {k : ℕ} (hk : k ≤ 308) :
    ∃ m e, powerOfTen k = finite false m e ∧ Proper m e ∧ (1 : ℚ) ≤ m * 2 ^ e := by
  -- all of them are computed; what a double is made of follows from how it was rounded
  have hall : ∀ k < 309, ((powerOfTen k).wholePart?.any fun p => 0 < p.1) = true := by
    decide +kernel
  have hpart := hall k (by omega)
  cases hx : powerOfTen k with
  | infinite s | nan =>
    rw [hx] at hpart
    cases hpart
  | finite s m e =>
    obtain ⟨rfl, hp, -⟩ := ofDecimal_eq_finite hx
    refine ⟨m, e, rfl, hp, ?_⟩
    rw [hx] at hpart
    have hquot : 0 < (fraction m e).1 / (fraction m e).2 := of_decide_eq_true hpart
    have hle : (fraction m e).2 ≤ (fraction m e).1 := (Nat.div_pos_iff.mp hquot).2
    have hden : (0 : ℚ) < (fraction m e).2 := by exact_mod_cast fraction_pos m e
    rw [← fraction_value, one_le_div hden]
    exact_mod_cast hle

/-- `scaleByTen` keeps `IsProper`. -/
theorem isProper_scaleByTen {x y : Binary64} {exponent : ℤ} (hx : x.IsProper)
    (h : scaleByTen x exponent = some y) : y.IsProper := by
  fun_induction scaleByTen x exponent with
  | case1 x exponent hsmall hup z hinf => cases h
  | case2 x exponent hsmall hup z hfinite =>
    obtain ⟨m, e, hpower, hp, -⟩ := powerOfTen_cases hsmall
    rw [← Option.some.inj h]
    exact hx.mul ⟨false, m, e, hpower, hp⟩ (Bool.eq_false_of_not_eq_true hfinite)
  | case3 x exponent hsmall hdown =>
    obtain ⟨m, e, hpower, -, hone⟩ := powerOfTen_cases hsmall
    cases h
    rw [hpower]
    exact hx.div hone
  | case4 x exponent hlarge hzero =>
    cases h
    exact hx
  | case5 x exponent hlarge hzero hup => cases h
  | case6 x exponent hlarge hzero hdown ih =>
    obtain ⟨m, e, hpower, -, hone⟩ := powerOfTen_cases le_rfl
    rw [hpower] at ih h
    exact ih (hx.div hone) h

/-! ## The readers -/

variable {α β : Type} {P : α → Prop} {Q : β → Prop} {c : Cursor}

/-- Where a reader succeeds, its value has the property `P`. -/
def Gives (P : α → Prop) (r : Except Error (α × Cursor)) : Prop := ∀ a c, r = .ok (a, c) → P a

theorem gives_ok {a : α} (h : P a) (c : Cursor) : Gives P (.ok (a, c)) := by
  rintro a' c' ⟨⟩
  exact h

theorem gives_fail (c : Cursor) (f : Fault) : Gives P (c.fail f) := nofun

theorem gives_failNext (c : Cursor) (f : Fault) : Gives P (c.failNext f) := nofun

theorem gives_ite {p : Prop} [Decidable p] {r r' : Except Error (α × Cursor)} (h : Gives P r)
    (h' : Gives P r') : Gives P (if p then r else r') := by
  split
  · exact h
  · exact h'

/-- `Gives` for two readers in a row. -/
theorem gives_bind {r : Except Error (α × Cursor)} {f : α × Cursor → Except Error (β × Cursor)}
    (hr : Gives P r) (hf : ∀ a c, P a → Gives Q (f (a, c))) : Gives Q (r >>= f) := by
  intro b c' h
  cases r with
  | error e => cases h
  | ok p => exact hf p.1 p.2 (hr p.1 p.2 rfl) b c' h

/-! ### Numbers -/

/-- `gather` stays within its bound. -/
theorem gather_le {bound acc : ℕ} (h : acc ≤ bound) (ds : List Char) :
    (gather bound acc ds).1 ≤ bound := by
  induction ds generalizing acc with
  | nil => exact h
  | cons d ds ih =>
    unfold gather
    dsimp only
    split
    · exact h
    · next hle => exact ih (not_lt.mp hle)

variable {negative : Bool} {significand : ℕ}

/-- `realNumber` gives numbers that `Fits`: a double, if `scaleByTen` does not give up. -/
theorem gives_realNumber (hsig : significand < 2 ^ 64) (exponent : ℤ) :
    Gives Number.Fits (realNumber negative significand exponent c) := by
  unfold realNumber
  split
  · next x hx =>
    have hproper := isProper_scaleByTen (isProper_ofNat hsig) hx
    apply gives_ok
    cases negative with
    | true => exact .real _ hproper.neg
    | false => exact .real _ hproper
  · exact gives_fail c _

theorem gives_readExponent (hsig : significand < 2 ^ 64) (exponent : ℤ) :
    Gives Number.Fits (readExponent negative significand exponent c) := by
  unfold readExponent
  dsimp only
  split
  · exact gives_fail _ _
  · refine gives_ite ?_ (gives_failNext _ _)
    split
    · exact gives_realNumber hsig _
    · exact gives_ite (gives_fail _ _) (gives_ok (.real _ (isProper_zero negative)) _)

theorem gives_readScale (hsig : significand < 2 ^ 64) (exponent : ℤ) :
    Gives Number.Fits (readScale negative significand exponent c) := by
  unfold readScale
  split
  · exact gives_readExponent hsig exponent
  · exact gives_readExponent hsig exponent
  · exact gives_realNumber hsig exponent

/-- `gather` keeps the significand below `2 ^ 64`. -/
theorem lt_of_gather (h : significand < 2 ^ 64) (ds : List Char) :
    (gather significandBound significand ds).1 < 2 ^ 64 := by
  have hbound : significandBound = 2 ^ 64 - 1 := rfl
  have hgather := gather_le (show significand ≤ significandBound by omega) ds
  omega

theorem gives_readFraction (hsig : significand < 2 ^ 64) (exponent : ℤ) :
    Gives Number.Fits (readFraction negative significand exponent c) := by
  unfold readFraction
  dsimp only
  split
  · exact gives_ite (gives_fail _ _) (gives_failNext _ _)
  · exact gives_readScale (lt_of_gather hsig _) _

/-- `wholeNumber` of a significand of 64 bits `Fits`. -/
theorem fits_wholeNumber (hsig : significand < 2 ^ 64) :
    (wholeNumber negative significand).Fits := by
  unfold wholeNumber
  split
  · exact .whole _ (by omega) (by omega)
  · split
    · exact .real _ (isProper_ofNat hsig).neg
    · next hle =>
      have hbound : Nat.pow 2 63 = 2 ^ 63 := rfl
      exact .whole _ (by omega) (by omega)

/-- `readNumber` gives numbers that `Fits`. -/
theorem gives_readNumber (negative : Bool) (c : Cursor) :
    Gives Number.Fits (readNumber negative c) := by
  unfold readNumber
  dsimp only
  split
  · exact gives_fail _ _
  · refine gives_ite (gives_failNext _ _) (gives_ite (gives_failNext _ _) ?_)
    have hsig : (gather significandBound 0 (c.takeWhile isDigit).1).1 < 2 ^ 64 :=
      lt_of_gather (by decide) _
    split
    · exact gives_readFraction hsig _
    · exact gives_readExponent hsig _
    · exact gives_readExponent hsig _
    · exact gives_ite (gives_ok (fits_wholeNumber hsig) _) (gives_realNumber hsig _)

/-! ### Documents -/

/-- Every number of a document `Fits`. -/
def NumbersFit (j : Json) : Prop := ∀ n, (Json.number n).Within j → n.Fits

theorem numbersFit_number {n : Number} (h : n.Fits) : NumbersFit (.number n) := by
  rintro m ⟨⟩
  exact h

theorem numbersFit_array {items : List Json} (h : ∀ j ∈ items, NumbersFit j) :
    NumbersFit (.array items) := by
  intro n hwithin
  cases hwithin with
  | item _ j hj within => exact h j hj n within

theorem numbersFit_object {ms : List (String × Json)} (h : ∀ m ∈ ms, NumbersFit m.2) :
    NumbersFit (.object ms) := by
  intro n hwithin
  cases hwithin with
  | member _ m hm within => exact h m hm n within

theorem gives_readWord {j : Json} (h : NumbersFit j) (ws : List Char) (c : Cursor) :
    Gives NumbersFit (readWord j ws c) := by
  induction ws generalizing c with
  | nil => exact gives_ok h c
  | cons w ws ih =>
    unfold readWord
    split
    · exact gives_fail _ _
    · exact gives_ite (ih c.advance) (gives_failNext _ _)

section

variable {item : Reader Json} (hitem : ∀ c, Gives NumbersFit (item c))
include hitem

/-- `readItems` gives documents with `NumbersFit`, if its reader does. -/
theorem gives_readItems (steps : ℕ) {items : List Json} (h : ∀ j ∈ items, NumbersFit j)
    (c : Cursor) : Gives (fun js => ∀ j ∈ js, NumbersFit j) (readItems item steps items c) := by
  -- the items so far fit, whatever the steps that are left
  induction steps generalizing items c with
  | zero => exact gives_fail _ _
  | succ steps ih =>
    unfold readItems
    dsimp only
    split
    · exact gives_fail _ _
    · apply gives_ok
      intro j hj
      exact h j (List.mem_reverse.mp hj)
    · refine gives_ite ?_ (gives_ite ?_ (gives_failNext _ _))
      · refine gives_bind (hitem _) fun j c hj => ih ?_ c
        exact List.forall_mem_singleton.mpr hj
      · split
        · exact gives_fail _ _
        · exact gives_failNext _ _
        · refine gives_bind (hitem _) fun j c hj => ih ?_ c
          exact List.forall_mem_cons.mpr ⟨hj, h⟩

/-- `readMember` gives what its reader gives. -/
theorem gives_readMember (c : Cursor) : Gives (fun m => NumbersFit m.2) (readMember item c) := by
  unfold readMember
  -- nothing is said about the key
  refine gives_bind (P := fun _ => True) (fun _ _ _ => trivial) fun key c _ => ?_
  dsimp only
  split
  · exact gives_fail _ _
  · exact gives_bind (hitem _) fun j c hj => gives_ok (a := (key, j)) hj c
  · exact gives_failNext _ _

theorem gives_readMembers (steps : ℕ) (first : Bool) {ms : List (String × Json)}
    (h : ∀ m ∈ ms, NumbersFit m.2) (c : Cursor) :
    Gives (fun ms => ∀ m ∈ ms, NumbersFit m.2) (readMembers item steps first ms c) := by
  induction steps generalizing first ms c with
  | zero => exact gives_fail _ _
  | succ steps ih =>
    -- a member takes the place of an earlier one with its key
    have hmember (c : Cursor) : Gives (fun ms => ∀ m ∈ ms, NumbersFit m.2)
        (readMember item c >>= fun p => readMembers item steps false
          (insertMember p.1.1 p.1.2 ms) p.2) := by
      refine gives_bind (gives_readMember hitem c) fun m c hm => ih false ?_ c
      intro m' hm'
      rcases mem_insertMember hm' with rfl | hm'
      · exact hm
      · exact h m' hm'
    unfold readMembers
    dsimp only
    split
    · exact gives_fail _ _
    · exact gives_ok h _
    · refine gives_ite (gives_ite (hmember _) (gives_failNext _ _))
        (gives_ite ?_ (gives_failNext _ _))
      split
      · exact gives_fail _ _
      · exact hmember _
      · exact gives_failNext _ _
      · exact gives_failNext _ _

end

/-- One level of `readValue`, from the level below. -/
theorem gives_readValue_of {levels : ℕ}
    (hinner : ∀ l, levels = l + 1 → ∀ c, Gives NumbersFit (readValue l c)) (c : Cursor) :
    Gives NumbersFit (readValue levels c) := by
  unfold readValue
  dsimp only
  -- by the character that the document begins with
  split
  · exact gives_fail _ _
  · exact gives_readWord (by rintro n ⟨⟩) _ _
  · exact gives_readWord (by rintro n ⟨⟩) _ _
  · exact gives_readWord (by rintro n ⟨⟩) _ _
  · refine gives_bind (P := fun _ => True) (fun _ _ _ => trivial) fun s c _ => ?_
    exact gives_ok (by rintro n ⟨⟩) c
  · exact gives_bind (gives_readNumber true _) fun n c hn => gives_ok (numbersFit_number hn) c
  · cases levels with
    | zero => exact gives_failNext _ _
    | succ l =>
      exact gives_bind (gives_readItems (hinner l rfl) _ (List.forall_mem_nil _) _)
        fun items c hitems => gives_ok (numbersFit_array hitems) c
  · cases levels with
    | zero => exact gives_failNext _ _
    | succ l =>
      exact gives_bind (gives_readMembers (hinner l rfl) _ true (List.forall_mem_nil _) _)
        fun ms c hms => gives_ok (numbersFit_object hms) c
  · refine gives_ite ?_ (gives_failNext _ _)
    exact gives_bind (gives_readNumber false _) fun n c hn => gives_ok (numbersFit_number hn) c

theorem gives_readValue (levels : ℕ) (c : Cursor) : Gives NumbersFit (readValue levels c) := by
  induction levels generalizing c with
  | zero => exact gives_readValue_of (by rintro l ⟨⟩) c
  | succ levels ih =>
    refine gives_readValue_of ?_ c
    rintro l ⟨⟩
    exact ih

/-- Every number of a document that `readBytes` returns `Fits`. -/
theorem fits_of_readBytes {bytes : List UInt8} {j : Json} (h : readBytes bytes = .ok j)
    {n : Number} (hn : (Json.number n).Within j) : n.Fits := by
  unfold readBytes at h
  cases hvalue : readValue maxLevels (.start bytes) with
  | error e =>
    rw [hvalue] at h
    cases h
  | ok p =>
    rw [hvalue] at h
    change (if _ then _ else _) = _ at h
    split at h
    · obtain rfl := Except.ok.inj h
      exact gives_readValue maxLevels _ p.1 p.2 hvalue n hn
    · cases h

end Json

end Interlock

import Interlock.Number.Format
import Interlock.Number.Reader
import Interlock.Proofs.Number.Shortest
import Interlock.Proofs.Text.Visible
import Interlock.Proofs.Url.Digits
import Mathlib

/-!
# Numbers are read back from their text

What is written for a number is read as the same number.

* `readBinary64?_render`: a `Proper` double, in every `FloatFormat`.
* `readWord?_ofNat`: a natural number below `2 ^ 64`.
* `readWord?_render`, `readWord?_ofInt_negSucc`: `readWord?` refuses a double that keeps its point,
  and a negative number.
-/

namespace Interlock.Number

open Text

variable {ds whole frac rest : List Char}

/-! ## Digits -/

theorem digitsValue_zeros (acc k : ℕ) :
    digitsValue acc (List.replicate k '0') = acc * 10 ^ k := by
  induction k generalizing acc with
  | zero => exact (Nat.mul_one acc).symm
  | succ k ih =>
    rw [List.replicate_succ]
    show digitsValue (acc * 10 + 0) (List.replicate k '0') = acc * 10 ^ (k + 1)
    rw [ih, Nat.add_zero, Nat.mul_assoc, Nat.pow_succ']

theorem digitsValue_append (acc : ℕ) (cs cs' : List Char) :
    digitsValue acc (cs ++ cs') = digitsValue (digitsValue acc cs) cs' :=
  List.foldl_append

theorem isDigit_of_mem_zeros {k : ℕ} : ∀ c ∈ List.replicate k '0', isDigit c = true := by
  intro c hc
  rw [List.eq_of_mem_replicate hc]
  rfl

/-- `readDigits?` of digits is their `digitsValue`. -/
theorem readDigits?_of_digits (hne : ds ≠ []) (hds : ∀ c ∈ ds, isDigit c = true) :
    readDigits? ds = some (digitsValue 0 ds) := by
  have hempty : ds.isEmpty = false := by simpa using hne
  have hall : ds.all isDigit = true := List.all_eq_true.mpr hds
  unfold readDigits?
  rw [hempty, hall]
  rfl

theorem readDigits?_toDigits (n : ℕ) : readDigits? (Nat.toDigits 10 n) = some n := by
  have hne : Nat.toDigits 10 n ≠ [] := Nat.toDigits_ne_nil
  rw [readDigits?_of_digits hne fun c hc => Url.isDigit_of_mem_toDigits hc,
    Url.digitsValue_toDigits]

theorem toList_ofNat (n : ℕ) : (Text.ofNat n).toList = Nat.toDigits 10 n := String.toList_ofList

theorem toList_ofInt_negSucc (n : ℕ) :
    (Text.ofInt (Int.negSucc n)).toList = '-' :: Nat.toDigits 10 (n + 1) := by
  show ("-" ++ Text.ofNat (n + 1)).toList = _
  rw [String.toList_append, toList_ofNat]
  rfl

/-! ## Decimal numerals -/

/-- The point and the digits behind it, or nothing if there are none. -/
def pointed (frac : List Char) : List Char :=
  match frac with
  | [] => []
  | frac => '.' :: frac

/-- The digits behind a point, if there is one, and what follows. -/
def splitFraction : List Char → List Char × List Char
  | '.' :: cs => (cs.takeWhile isDigit, cs.dropWhile isDigit)
  | cs => ([], cs)

/-- What `readDecimal?` does behind the digits. -/
def readPower? (digits : ℕ) (shift : ℤ) : List Char → Option Decimal
  | [] => some ⟨digits, shift⟩
  | c :: cs =>
    if lowerChar c = 'e' then
      let (negative, cs) := takeSign cs
      (readDigits? cs).map fun n => ⟨digits, shift + (if negative then -(n : ℤ) else n)⟩
    else none

theorem readDecimal?_eq (cs : List Char) :
    readDecimal? cs =
      let parts := splitFraction (cs.dropWhile isDigit)
      if (cs.takeWhile isDigit).isEmpty && parts.1.isEmpty then none
      else readPower? (digitsValue 0 (cs.takeWhile isDigit ++ parts.1)) (-(parts.1.length : ℤ))
        parts.2 := rfl

/-- `takeWhile isDigit` stops at a tail that does not begin with a digit. -/
theorem span_digits {tail : List Char} (hds : ∀ c ∈ ds, isDigit c = true)
    (htail : ∀ c ∈ tail.head?, isDigit c = false) :
    (ds ++ tail).takeWhile isDigit = ds ∧ (ds ++ tail).dropWhile isDigit = tail := by
  rw [List.takeWhile_append_of_pos hds, List.dropWhile_append_of_pos hds]
  cases tail with
  | nil => exact ⟨List.append_nil ds, rfl⟩
  | cons c cs =>
    have hc : ¬ isDigit c = true := by simpa using htail c rfl
    rw [List.takeWhile_cons_of_neg hc, List.dropWhile_cons_of_neg hc]
    exact ⟨List.append_nil ds, rfl⟩

/-- `readDecimal?` of whole digits, `pointed` digits and the rest. -/
theorem readDecimal?_parts (hne : whole ≠ []) (hwhole : ∀ c ∈ whole, isDigit c = true)
    (hfrac : ∀ c ∈ frac, isDigit c = true)
    (hrest : ∀ c ∈ rest.head?, isDigit c = false ∧ c ≠ '.') :
    readDecimal? (whole ++ pointed frac ++ rest) =
      readPower? (digitsValue 0 (whole ++ frac)) (-(frac.length : ℤ)) rest := by
  have hempty : whole.isEmpty = false := by simpa using hne
  -- the first digits end at the point, or at what follows if there is none
  have hafter : ∀ c ∈ (pointed frac ++ rest).head?, isDigit c = false := by
    cases frac with
    | nil => exact fun c hc => (hrest c hc).1
    | cons d frac =>
      rintro c hc
      obtain rfl : '.' = c := Option.some.inj hc
      rfl
  obtain ⟨htake, hdrop⟩ := span_digits hwhole hafter
  have hsplit : splitFraction (pointed frac ++ rest) = (frac, rest) := by
    cases frac with
    | nil =>
      cases rest with
      | nil => rfl
      | cons c rest =>
        have hc : c ≠ '.' := (hrest c rfl).2
        show splitFraction (c :: rest) = ([], c :: rest)
        unfold splitFraction
        split
        · next h =>
          injection h with h
          exact absurd h hc
        · rfl
    | cons d frac =>
      obtain ⟨htake, hdrop⟩ := span_digits hfrac fun c hc => (hrest c hc).1
      show ((d :: frac ++ rest).takeWhile isDigit, (d :: frac ++ rest).dropWhile isDigit) = _
      rw [htake, hdrop]
  rw [List.append_assoc, readDecimal?_eq, htake, hdrop, hsplit, hempty]
  rfl

/-- `cs` begins with a digit, and `readDecimal?` reads it with the value `q`. -/
structure Writes (cs : List Char) (q : ℚ) : Prop where
  digit : ∀ c ∈ cs.head?, isDigit c = true
  value : ∃ d, readDecimal? cs = some d ∧ (d.digits : ℚ) * 10 ^ d.exponent = q

/-- A numeral without an exponent. -/
theorem writes_parts (hne : whole ≠ []) (hwhole : ∀ c ∈ whole, isDigit c = true)
    (hfrac : ∀ c ∈ frac, isDigit c = true) :
    Writes (whole ++ pointed frac)
      (digitsValue 0 (whole ++ frac) * 10 ^ (-(frac.length : ℤ))) := by
  constructor
  · intro c hc
    rw [List.head?_append_of_ne_nil _ hne] at hc
    exact hwhole c (List.mem_of_mem_head? hc)
  · have hread : readDecimal? (whole ++ pointed frac ++ []) = _ :=
      readDecimal?_parts hne hwhole hfrac nofun
    rw [List.append_nil] at hread
    exact ⟨_, hread, rfl⟩

/-- The exponent of a numeral, with its sign. -/
def signed (x : ℤ) : List Char :=
  if x < 0 then (Text.ofInt x).toList else '+' :: (Text.ofInt x).toList

theorem readPower?_signed (digits : ℕ) (shift x : ℤ) :
    readPower? digits shift ('e' :: signed x) = some ⟨digits, shift + x⟩ := by
  have hread (negative : Bool) (n : ℕ) :
      (readDigits? (Nat.toDigits 10 n)).map
        (fun n => (⟨digits, shift + (if negative then -(n : ℤ) else n)⟩ : Decimal)) =
        some ⟨digits, shift + (if negative then -(n : ℤ) else n)⟩ := by
    rw [readDigits?_toDigits]
    rfl
  cases x with
  | ofNat n =>
    have hsigned : signed (Int.ofNat n) = '+' :: Nat.toDigits 10 n :=
      congrArg ('+' :: ·) (toList_ofNat n)
    rw [hsigned]
    exact hread false n
  | negSucc n =>
    have hsigned : signed (Int.negSucc n) = '-' :: Nat.toDigits 10 (n + 1) :=
      (if_pos (Int.negSucc_lt_zero n)).trans (toList_ofInt_negSucc n)
    rw [hsigned]
    exact hread true (n + 1)

/-- A numeral with an exponent. -/
theorem writes_power (hne : whole ≠ []) (hwhole : ∀ c ∈ whole, isDigit c = true)
    (hfrac : ∀ c ∈ frac, isDigit c = true) (x : ℤ) :
    Writes (whole ++ pointed frac ++ 'e' :: signed x)
      (digitsValue 0 (whole ++ frac) * 10 ^ (x - frac.length)) := by
  constructor
  · intro c hc
    rw [List.append_assoc, List.head?_append_of_ne_nil _ hne] at hc
    exact hwhole c (List.mem_of_mem_head? hc)
  · have hrest : ∀ c ∈ ('e' :: signed x).head?, isDigit c = false ∧ c ≠ '.' := by
      intro c hc
      obtain rfl : 'e' = c := Option.some.inj hc
      decide
    have hread := readDecimal?_parts hne hwhole hfrac hrest
    rw [readPower?_signed] at hread
    exact ⟨_, hread, by rw [neg_add_eq_sub]⟩

/-! ## Digits laid out -/

/-- The numeral `0.00…ds` has the value `digitsValue 0 ds * 10 ^ (-k - ds.length)`. -/
theorem writes_below_one (hds : ∀ c ∈ ds, isDigit c = true) (k : ℕ)
    (hne : List.replicate k '0' ++ ds ≠ []) :
    Writes ('0' :: '.' :: (List.replicate k '0' ++ ds))
      (digitsValue 0 ds * 10 ^ (-(k : ℤ) - ds.length)) := by
  have hzero : ∀ c ∈ ['0'], isDigit c = true := by simp [isDigit]
  have hfrac : ∀ c ∈ List.replicate k '0' ++ ds, isDigit c = true := by
    rw [List.forall_mem_append]
    exact ⟨isDigit_of_mem_zeros, hds⟩
  have hwrites := writes_parts (List.cons_ne_nil '0' []) hzero hfrac
  have hpointed : pointed (List.replicate k '0' ++ ds) = '.' :: (List.replicate k '0' ++ ds) := by
    unfold pointed
    split
    · next h => exact absurd h hne
    · rfl
  have hvalue : digitsValue 0 (['0'] ++ (List.replicate k '0' ++ ds)) = digitsValue 0 ds := by
    rw [digitsValue_append, digitsValue_append, digitsValue_zeros]
    show digitsValue (0 * 10 ^ k) ds = digitsValue 0 ds
    rw [Nat.zero_mul]
  have hlength : (-((List.replicate k '0' ++ ds).length : ℕ) : ℤ) = -(k : ℤ) - ds.length := by
    rw [List.length_append, List.length_replicate]
    omega
  rw [hpointed, hvalue, hlength] at hwrites
  exact hwrites

/-- Digits with `k` zeros behind them, and with `.0` or without. -/
theorem writes_whole (hne : ds ≠ []) (hds : ∀ c ∈ ds, isDigit c = true) (keepsPoint : Bool)
    (k : ℕ) :
    Writes (if keepsPoint then ds ++ List.replicate k '0' ++ ['.', '0']
      else ds ++ List.replicate k '0') (digitsValue 0 ds * 10 ^ (k : ℤ)) := by
  have hwhole : ∀ c ∈ ds ++ List.replicate k '0', isDigit c = true := by
    rw [List.forall_mem_append]
    exact ⟨hds, isDigit_of_mem_zeros⟩
  have hvalue : digitsValue 0 (ds ++ List.replicate k '0') = digitsValue 0 ds * 10 ^ k := by
    rw [digitsValue_append, digitsValue_zeros]
  have hwhole_ne : ds ++ List.replicate k '0' ≠ [] := List.append_ne_nil_of_left_ne_nil hne _
  cases keepsPoint with
  | true =>
    have hzero : ∀ c ∈ ['0'], isDigit c = true := by simp [isDigit]
    have hwrites := writes_parts hwhole_ne hwhole hzero
    rw [digitsValue_append, hvalue] at hwrites
    have hscale : ((digitsValue (digitsValue 0 ds * 10 ^ k) ['0'] : ℕ) : ℚ) *
        10 ^ (-((['0'].length : ℕ) : ℤ)) = digitsValue 0 ds * 10 ^ (k : ℤ) := by
      show (((digitsValue 0 ds * 10 ^ k) * 10 + 0 : ℕ) : ℚ) * 10 ^ (-1 : ℤ) = _
      rw [zpow_natCast, zpow_neg_one]
      push_cast
      ring
    rw [hscale] at hwrites
    exact hwrites
  | false =>
    have hwrites := writes_parts hwhole_ne hwhole (List.forall_mem_nil _)
    rw [List.append_nil, hvalue] at hwrites
    have hscale :
        ((digitsValue 0 ds * 10 ^ k : ℕ) : ℚ) * 10 ^ (-((([] : List Char).length : ℕ) : ℤ)) =
          digitsValue 0 ds * 10 ^ (k : ℤ) := by
      rw [zpow_natCast]
      push_cast
      simp
    rw [hscale] at hwrites
    simpa [pointed] using hwrites

/-- Digits with a point behind the first `k`. -/
theorem writes_pointed (hds : ∀ c ∈ ds, isDigit c = true) {k : ℕ} (hpos : 0 < k)
    (hlt : k < ds.length) :
    Writes (ds.take k ++ '.' :: ds.drop k) (digitsValue 0 ds * 10 ^ ((k : ℤ) - ds.length)) := by
  have hne : ds.take k ≠ [] := by
    rw [← List.length_pos_iff, List.length_take]
    omega
  have hfrac : ∀ c ∈ ds.drop k, isDigit c = true := fun c hc => hds c (List.mem_of_mem_drop hc)
  have hwrites := writes_parts hne (fun c hc => hds c (List.mem_of_mem_take hc)) hfrac
  have hpointed : pointed (ds.drop k) = '.' :: ds.drop k := by
    unfold pointed
    split
    · next h =>
      rw [List.drop_eq_nil_iff] at h
      omega
    · rfl
  have hlength : (-((ds.drop k).length : ℕ) : ℤ) = k - ds.length := by
    rw [List.length_drop]
    omega
  rw [hpointed, List.take_append_drop, hlength] at hwrites
  exact hwrites

/-- `layPositional` writes `digitsValue 0 ds * 10 ^ (point - ds.length)`. -/
theorem writes_layPositional (hne : ds ≠ []) (hds : ∀ c ∈ ds, isDigit c = true)
    (keepsPoint : Bool) (point : ℤ) :
    Writes (layPositional keepsPoint ds point)
      (digitsValue 0 ds * 10 ^ (point - ds.length)) := by
  unfold layPositional
  split
  · next k =>
    exact writes_below_one hds (k + 1) (by simp)
  · exact writes_below_one hds 0 (by simpa using hne)
  · next k hk =>
    dsimp only
    split
    · next hdrop =>
      have hle : ds.length ≤ k := List.drop_eq_nil_iff.mp hdrop
      have hpoint : (Int.ofNat k) - (ds.length : ℤ) = ((k - ds.length : ℕ) : ℤ) := by
        rw [Int.ofNat_eq_natCast]
        omega
      rw [List.take_of_length_le hle, hpoint]
      exact writes_whole hne hds keepsPoint (k - ds.length)
    · next hdrop =>
      have hlt : k < ds.length := not_le.mp (mt List.drop_eq_nil_iff.mpr hdrop)
      rw [Nat.sub_eq_zero_of_le hlt.le, List.replicate_zero, List.append_nil]
      exact writes_pointed hds (Nat.pos_of_ne_zero hk) hlt

/-- `layScientific` writes `digitsValue 0 ds * 10 ^ (x + 1 - ds.length)`. -/
theorem writes_layScientific (hne : ds ≠ []) (hds : ∀ c ∈ ds, isDigit c = true) (x : ℤ) :
    Writes (layScientific ds x) (digitsValue 0 ds * 10 ^ (x + 1 - ds.length)) := by
  obtain ⟨d, ds, rfl⟩ := List.exists_cons_of_ne_nil hne
  rw [List.forall_mem_cons] at hds
  have hfirst : ∀ c ∈ [d], isDigit c = true := by
    rw [List.forall_mem_singleton]
    exact hds.1
  have hwrites := writes_power (List.cons_ne_nil d []) hfirst hds.2 x
  have hexponent : x + 1 - (d :: ds).length = x - ds.length := by
    rw [List.length_cons]
    push_cast
    ring
  rw [hexponent]
  exact hwrites

theorem writes_laid (hne : ds ≠ []) (hds : ∀ c ∈ ds, isDigit c = true)
    (positional keepsPoint : Bool) (point : ℤ) :
    Writes (if positional then layPositional keepsPoint ds point
      else layScientific ds (point - 1)) (digitsValue 0 ds * 10 ^ (point - ds.length)) := by
  cases positional with
  | true => exact writes_layPositional hne hds keepsPoint point
  | false =>
    have hwrites := writes_layScientific hne hds (point - 1)
    rw [sub_add_cancel] at hwrites
    exact hwrites

/-! ## Doubles -/

/-- What begins with a digit is not one of the words for numbers that are not finite. -/
theorem word_ne {cs : List Char} (h : ∀ c ∈ cs.head?, isDigit c = true) {w : Char}
    (hw : isDigit w = false) (ws : List Char) :
    String.ofList (cs.map lowerChar) ≠ String.ofList (w :: ws) := by
  intro heq
  have hlist : cs.map lowerChar = w :: ws := by
    rw [← String.toList_ofList (l := cs.map lowerChar), heq, String.toList_ofList]
  cases cs with
  | nil => cases hlist
  | cons c cs =>
    rw [List.map_cons, List.cons.injEq] at hlist
    have hc : isDigit c = true := h c rfl
    -- digits have no upper case
    have hlower : lowerChar c = c := by
      apply if_neg
      rintro ⟨hlow, -⟩
      have hhigh : c ≤ '9' := by simpa using (Bool.and_eq_true_iff.mp hc).2
      exact absurd (le_trans hlow hhigh) (by decide)
    rw [hlower] at hlist
    rw [hlist.1, hw] at hc
    cases hc

/-- `readBinary64?` of a signed numeral is `ofDecimal` of its value. -/
theorem readBinary64?_of_writes {cs : List Char} {q : ℚ} (h : Writes cs q) (s : Bool) :
    ∃ d : Decimal, (d.digits : ℚ) * 10 ^ d.exponent = q ∧
      readBinary64? (String.ofList ((if s then ['-'] else []) ++ cs)) =
        some (.ofDecimal s d.digits d.exponent) := by
  obtain ⟨d, hread, hvalue⟩ := h.value
  refine ⟨d, hvalue, ?_⟩
  -- no sign is found in a digit
  have hsign : takeSign ((if s then ['-'] else []) ++ cs) = (s, cs) := by
    cases s with
    | true => rfl
    | false =>
      show takeSign cs = (false, cs)
      unfold takeSign
      split
      · exact absurd (h.digit '-' rfl) (by decide)
      · exact absurd (h.digit '+' rfl) (by decide)
      · rfl
  unfold readBinary64?
  rw [String.toList_ofList, hsign]
  dsimp only
  rw [if_neg, if_neg, hread]
  · rfl
  · exact word_ne h.digit (by decide) ['a', 'n']
  · rintro (hinf | hinf)
    · exact word_ne h.digit (by decide) ['n', 'f'] hinf
    · exact word_ne h.digit (by decide) ['n', 'f', 'i', 'n', 'i', 't', 'y'] hinf

theorem readBinary64?_render_zero (f : FloatFormat) (s : Bool) :
    readBinary64? (f.render (.finite s 0 Binary64.leastExponent)) =
      some (.finite s 0 Binary64.leastExponent) := by
  have hwrites := writes_whole (List.cons_ne_nil '0' []) (by simp [isDigit]) f.keepsPoint 0
  obtain ⟨d, hvalue, hread⟩ := readBinary64?_of_writes hwrites s
  have hdigits : d.digits = 0 := by
    rw [show digitsValue 0 ['0'] = 0 from rfl, Nat.cast_zero, zero_mul, mul_eq_zero] at hvalue
    exact_mod_cast hvalue.resolve_right (zpow_ne_zero _ (by norm_num))
  rw [hdigits] at hread
  exact hread

/-- `readBinary64?` reads `f.render x` as `x`, for every `Proper` double and every format. -/
theorem readBinary64?_render (f : FloatFormat) (s : Bool) {m : ℕ} {e : ℤ}
    (hp : Binary64.Proper m e) :
    readBinary64? (f.render (.finite s m e)) = some (.finite s m e) := by
  rcases Nat.eq_zero_or_pos m with rfl | hm
  · rw [hp.normal.resolve_left (by decide)]
    exact readBinary64?_render_zero f s
  · have hdigits : ∀ c ∈ Nat.toDigits 10 (shortest m e).digits, isDigit c = true :=
      fun c hc => Url.isDigit_of_mem_toDigits hc
    have hlaid (positional : Bool) := writes_laid Nat.toDigits_ne_nil hdigits positional
      f.keepsPoint ((Nat.toDigits 10 (shortest m e).digits).length + (shortest m e).exponent)
    simp only [Url.digitsValue_toDigits, add_sub_cancel_left] at hlaid
    unfold FloatFormat.render
    dsimp only
    rw [if_neg hm.ne']
    obtain ⟨d, hvalue, hread⟩ := readBinary64?_of_writes (hlaid _) s
    -- the numeral may shift its point, but its value is that of the shortest digits
    have hpos : 0 < d.digits := by
      by_contra hzero
      have hshort : (0 : ℚ) < (shortest m e).digits := by exact_mod_cast shortest_pos hm hp
      rw [Nat.eq_zero_of_not_pos hzero, Nat.cast_zero, zero_mul] at hvalue
      exact absurd hvalue (by positivity)
    have hnear := shortest_near hm hp
    rw [← hvalue] at hnear
    rw [hread, Binary64.ofDecimal_of_near s hpos hm hp hnear]

/-! ## Natural numbers of 64 bits -/

/-- A text with a character that is no digit and no `+` is refused. -/
theorem readWord?_eq_none {s : String} {c : Char} (hc : c ∈ s.toList) (hdigit : isDigit c = false)
    (hplus : c ≠ '+') : readWord? s = none := by
  have hnone {cs : List Char} (hmem : c ∈ cs) : readDigits? cs = none := by
    apply if_pos
    rw [Bool.or_eq_true, Bool.not_eq_true', List.all_eq_false]
    exact .inr ⟨c, hmem, by simp [hdigit]⟩
  unfold readWord?
  dsimp only
  split
  · next cs hs =>
    rw [hs] at hc
    rw [hnone ((List.mem_cons.mp hc).resolve_left hplus)]
    rfl
  · rw [hnone hc]
    rfl

theorem readWord?_ofNat {n : ℕ} (hn : n < 2 ^ 64) : readWord? (Text.ofNat n) = some n := by
  unfold readWord?
  rw [toList_ofNat]
  dsimp only
  split
  · next cs hs =>
    have hplus : '+' ∈ Nat.toDigits 10 n := by
      rw [hs]
      exact List.mem_cons_self
    exact absurd (Url.isDigit_of_mem_toDigits hplus) (by decide)
  · rw [readDigits?_toDigits]
    exact Option.filter_some_pos (decide_eq_true hn)

theorem readWord?_ofInt_negSucc (n : ℕ) : readWord? (Text.ofInt (Int.negSucc n)) = none := by
  apply readWord?_eq_none (c := '-')
  · rw [toList_ofInt_negSucc]
    exact List.mem_cons_self
  · rfl
  · decide

/-- A negative number is read as a double without `wholePart?`: it does not round to zero. -/
theorem readBinary64?_ofInt_negSucc (n : ℕ) :
    ∃ x, readBinary64? (Text.ofInt (Int.negSucc n)) = some x ∧ x.wholePart? = none := by
  have hwrites := writes_whole Nat.toDigits_ne_nil
    (fun c hc => Url.isDigit_of_mem_toDigits (n := n + 1) hc) false 0
  obtain ⟨d, hvalue, hread⟩ := readBinary64?_of_writes hwrites true
  rw [Url.digitsValue_toDigits, Nat.cast_zero, zpow_zero, mul_one] at hvalue
  have htext : String.ofList ((if true then ['-'] else []) ++
      (Nat.toDigits 10 (n + 1) ++ List.replicate 0 '0')) = Text.ofInt (Int.negSucc n) := by
    apply String.toList_injective
    rw [String.toList_ofList, toList_ofInt_negSucc, List.replicate_zero, List.append_nil]
    rfl
  refine ⟨.ofDecimal true d.digits d.exponent, htext ▸ hread, ?_⟩
  cases hx : Binary64.ofDecimal true d.digits d.exponent with
  | infinite s => rfl
  | nan => rfl
  | finite s m e =>
    obtain ⟨rfl, -⟩ := Binary64.ofDecimal_eq_finite hx
    have hone : (1 : ℚ) ≤ (n + 1 : ℕ) := by exact_mod_cast Nat.le_add_left 1 n
    have hm : m ≠ 0 := Binary64.mantissa_ne_zero hx (hvalue ▸ hone)
    apply if_pos
    simpa using hm

/-- A layout that keeps the point has a character that is no digit. -/
theorem exists_mem_laid (positional : Bool) (ds : List Char) (point : ℤ) :
    ∃ c ∈ (if positional then layPositional true ds point else layScientific ds (point - 1)),
      isDigit c = false ∧ c ≠ '+' := by
  cases positional with
  | true =>
    refine ⟨'.', ?_, by decide⟩
    show '.' ∈ layPositional true ds point
    unfold layPositional
    split
    · simp
    · simp
    · dsimp only
      split <;> simp
  | false =>
    refine ⟨'e', ?_, by decide⟩
    show 'e' ∈ layScientific ds (point - 1)
    unfold layScientific
    simp

/-- `readWord?` refuses `f.render x` if `f.keepsPoint`. -/
theorem readWord?_render {f : FloatFormat} (hf : f.keepsPoint = true) (s : Bool) (m : ℕ) (e : ℤ) :
    readWord? (f.render (.finite s m e)) = none := by
  unfold FloatFormat.render
  dsimp only
  rw [hf]
  split
  · exact readWord?_eq_none (c := '.') (by simp) rfl (by decide)
  · obtain ⟨c, hc, hdigit, hplus⟩ := exists_mem_laid _ _ _
    refine readWord?_eq_none (c := c) ?_ hdigit hplus
    rw [String.toList_ofList]
    exact List.mem_append_right _ hc

end Interlock.Number

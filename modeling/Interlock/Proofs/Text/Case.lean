import Interlock.Proofs.Text.Utf8
import Interlock.Text.Case

/-!
# A small letter has no other small letter

`smallLetter` goes by rows of capitals: every one or every other code point of a range, with small
letters in a range of their own (`Row`). No small letter stands among the capitals, which is checked
row against row (`apart`), so `smallLetter` is idempotent.
-/

namespace Interlock.Text

/-- A row of capital letters: every `step`-th code point from `low` to `high`. The small letters
start at `small`. -/
structure Row where
  low : Nat
  high : Nat
  step : Nat
  small : Nat
  deriving DecidableEq

namespace Row

/-- The row has the capital letter with code point `n`. -/
def Holds (r : Row) (n : Nat) : Prop := r.low ≤ n ∧ n ≤ r.high ∧ n % r.step = r.low % r.step

/-- The code point of the small letter of a capital letter of the row. -/
def smallOf (r : Row) (n : Nat) : Nat := r.small + (n - r.low)

/-- All rows. -/
def all : List Row :=
  shiftedRanges.map (fun r => ⟨r.1, r.2.1, 1, r.1 + r.2.2⟩) ++
    alternatingRanges.map (fun r => ⟨r.1, r.2, 2, r.1 + 1⟩) ++
    loneCapitals.map fun p => ⟨p.1, p.1, 1, p.2⟩

/-- The rows come from three tables: `shiftedRanges`, `alternatingRanges` and `loneCapitals`. -/
theorem mem_all {r : Row} : r ∈ all ↔
    (∃ x ∈ shiftedRanges, r = ⟨x.1, x.2.1, 1, x.1 + x.2.2⟩) ∨
    (∃ x ∈ alternatingRanges, r = ⟨x.1, x.2, 2, x.1 + 1⟩) ∨
    ∃ x ∈ loneCapitals, r = ⟨x.1, x.1, 1, x.2⟩ := by
  unfold all
  simp only [List.mem_append, List.mem_map, or_assoc, eq_comm]

/-- The small letters of a row lie outside a range of code points. -/
def Misses (r : Row) (low high : Nat) : Prop :=
  r.small + (r.high - r.low) < low ∨ high < r.small

instance (r : Row) (low high : Nat) : Decidable (r.Misses low high) :=
  inferInstanceAs (Decidable (_ ∨ _))

/-- The small letters of a row miss another row, or fall between its capitals. -/
theorem apart : ∀ r ∈ all, ∀ r' ∈ all, r.Misses r'.low r'.high ∨
    r.step = 2 ∧ r'.step = 2 ∧ r.small % 2 ≠ r'.low % 2 := by
  decide

theorem small_lt : ∀ r ∈ all, r.small + (r.high - r.low) < 0xD800 := by decide

variable {r : Row} {n : Nat}

theorem Misses.smallOf {low high : Nat} (h : r.Misses low high) (hn : r.Holds n) :
    r.smallOf n < low ∨ high < r.smallOf n := by
  obtain ⟨hlow, hhigh, -⟩ := hn
  unfold Row.smallOf
  rcases h with h | h
  · left
    omega
  · right
    omega

/-- No row `Holds` a small letter. -/
theorem not_holds_smallOf (hr : r ∈ all) (hn : r.Holds n) :
    ∀ r' ∈ all, ¬ r'.Holds (r.smallOf n) := by
  intro r' hr' hheld
  obtain ⟨hlow, hhigh, hparity⟩ := hheld
  rcases apart r hr r' hr' with hmiss | ⟨hstep, hstep', hne⟩
  · rcases hmiss.smallOf hn with h | h <;> omega
  · obtain ⟨hfrom, -, hstride⟩ := hn
    rw [hstep] at hstride
    rw [hstep'] at hparity
    unfold smallOf at hparity
    omega

end Row

/-- `smallLetter c` is `smallOf` the row that `Holds` the letter, or `c`. -/
theorem smallLetter_cases (c : Char) :
    (∃ r ∈ Row.all, r.Holds c.toNat ∧ smallLetter c = Char.ofNat (r.smallOf c.toNat)) ∨
      ((∀ r ∈ Row.all, ¬ r.Holds c.toNat) ∧ smallLetter c = c) := by
  unfold smallLetter
  dsimp only
  split
  · next x hfind =>
    have hheld := List.find?_some hfind
    simp only [Bool.and_eq_true, decide_eq_true_eq] at hheld
    refine .inl ⟨_, Row.mem_all.mpr (.inl ⟨x, List.mem_of_find?_eq_some hfind, rfl⟩),
      ⟨hheld.1, hheld.2, by rw [Nat.mod_one, Nat.mod_one]⟩, ?_⟩
    congr 1
    show _ = x.1 + x.2.2 + (c.toNat - x.1)
    omega
  · next hshifted =>
    split
    · next hany =>
      obtain ⟨x, hmem, hheld⟩ := List.any_eq_true.mp hany
      simp only [isAlternatingCapital, Bool.and_eq_true, decide_eq_true_eq, beq_iff_eq] at hheld
      refine .inl ⟨_, Row.mem_all.mpr (.inr (.inl ⟨x, hmem, rfl⟩)),
        ⟨hheld.1.1, hheld.1.2, hheld.2⟩, ?_⟩
      congr 1
      show _ = x.1 + 1 + (c.toNat - x.1)
      omega
    · next halternating =>
      cases hfind : loneCapitals.find? (·.1 == c.toNat) with
      | some x =>
        have hheld := List.find?_some hfind
        rw [beq_iff_eq] at hheld
        refine .inl ⟨_, Row.mem_all.mpr (.inr (.inr ⟨x, List.mem_of_find?_eq_some hfind, rfl⟩)),
          ⟨Nat.le_of_eq hheld, Nat.le_of_eq hheld.symm, by rw [Nat.mod_one, Nat.mod_one]⟩, ?_⟩
        show Char.ofNat x.2 = Char.ofNat (x.2 + (c.toNat - x.1))
        rw [hheld, Nat.sub_self, Nat.add_zero]
      | none =>
        -- each of the three searches went through its rows
        refine .inr ⟨?_, rfl⟩
        rw [List.find?_eq_none] at hshifted hfind
        rintro r hr ⟨hlow, hhigh, hparity⟩
        rcases Row.mem_all.mp hr with ⟨x, hx, rfl⟩ | ⟨x, hx, rfl⟩ | ⟨x, hx, rfl⟩
        · exact hshifted x hx (by simpa using And.intro hlow hhigh)
        · refine halternating (List.any_eq_true.mpr ⟨x, hx, ?_⟩)
          simp only [isAlternatingCapital, Bool.and_eq_true, decide_eq_true_eq, beq_iff_eq]
          exact ⟨⟨hlow, hhigh⟩, hparity⟩
        · exact hfind x hx (beq_iff_eq.mpr (Nat.le_antisymm hlow hhigh))

theorem Row.toNat_smallOf {r : Row} {n : Nat} (hr : r ∈ Row.all) (hn : r.Holds n) :
    (Char.ofNat (r.smallOf n)).toNat = r.smallOf n := by
  apply Utf8.toNat_ofNat
  left
  have hlt := Row.small_lt r hr
  obtain ⟨hlow, hhigh, -⟩ := hn
  unfold Row.smallOf
  omega

/-- `smallLetter` is idempotent. -/
theorem smallLetter_smallLetter (c : Char) : smallLetter (smallLetter c) = smallLetter c := by
  rcases smallLetter_cases c with ⟨r, hr, hheld, hsmall⟩ | ⟨-, hsame⟩
  · rcases smallLetter_cases (smallLetter c) with ⟨r', hr', hheld', -⟩ | ⟨-, hsame⟩
    · rw [hsmall, Row.toNat_smallOf hr hheld] at hheld'
      exact absurd hheld' (Row.not_holds_smallOf hr hheld r' hr')
    · exact hsame
  · rw [hsame, hsame]

end Interlock.Text

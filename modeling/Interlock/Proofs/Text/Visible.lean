import Interlock.Text.Basic

/-!
# Characters that show

The characters of ASCII that are neither controls nor blank space are `Visible`. Numbers, and the
parts of an address in its usual form, consist of them, so such a text can stand anywhere in another
one without being taken apart or trimmed.
-/

namespace Interlock.Text

/-- What holds of all characters of a text is decided by the characters of the text, and not by
going through all characters that there are. -/
instance (priority := high) decidableForallMem {p : Char → Prop} [DecidablePred p]
    (cs : List Char) : Decidable (∀ c ∈ cs, p c) := List.decidableBAll p cs

/-- A character of ASCII that shows. -/
def Visible (c : Char) : Prop := 0x20 < c.toNat ∧ c.toNat < 0x7F

instance (c : Char) : Decidable (Visible c) := inferInstanceAs (Decidable (_ ∧ _))

/-- A `Visible` character is not blank. -/
theorem Visible.isBlank {c : Char} (h : Visible c) : isBlank c = false := by
  obtain ⟨hlow, hhigh⟩ := h
  simp only [Text.isBlank, Bool.or_eq_false_iff, Bool.and_eq_false_iff, decide_eq_false_iff_not,
    beq_eq_false_iff_ne]
  omega

theorem visible_of_isLetter {c : Char} (h : isLetter c = true) : Visible c := by
  simp only [isLetter, Bool.or_eq_true, Bool.and_eq_true, decide_eq_true_eq, Char.le_def,
    UInt32.le_iff_toNat_le] at h
  have hn : 97 ≤ c.toNat ∧ c.toNat ≤ 122 ∨ 65 ≤ c.toNat ∧ c.toNat ≤ 90 := h
  constructor <;> omega

theorem visible_of_isDigit {c : Char} (h : isDigit c = true) : Visible c := by
  simp only [isDigit, Bool.and_eq_true, decide_eq_true_eq, Char.le_def, UInt32.le_iff_toNat_le] at h
  have hn : 48 ≤ c.toNat ∧ c.toNat ≤ 57 := h
  constructor <;> omega

/-- The decimal digits of a number are `Visible`. -/
theorem visible_of_mem_toDigits {n : Nat} {c : Char} (h : c ∈ Nat.toDigits 10 n) : Visible c :=
  visible_of_isDigit (Nat.isDigit_of_mem_toDigits (by decide) (by decide) h)

/-- The characters of `ofNat n` are `Visible`. -/
theorem visible_ofNat (n : Nat) : ∀ c ∈ (ofNat n).toList, Visible c := by
  intro c hc
  unfold ofNat at hc
  rw [String.toList_ofList] at hc
  exact visible_of_mem_toDigits hc

theorem visible_ofInt (i : Int) : ∀ c ∈ (ofInt i).toList, Visible c := by
  cases i with
  | ofNat n => exact visible_ofNat n
  | negSucc n =>
    unfold ofInt
    rw [String.toList_append, List.forall_mem_append]
    exact ⟨by decide, visible_ofNat (n + 1)⟩

end Interlock.Text

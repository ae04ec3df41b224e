import Interlock.Json.Printer
import Interlock.Proofs.Text.Visible
import Mathlib.Data.List.Basic

/-!
# Numbers in text have no blank space

Every character of `Number.text` is `Visible`: a digit, a sign, a point, or a letter. So a number
can stand anywhere in a text without being taken apart or trimmed.
-/

namespace Interlock.Number

open Text

variable {ds : List Char}

private theorem visible_zeros (k : Nat) : ∀ c ∈ List.replicate k '0', Visible c := by
  intro c hc
  rw [List.eq_of_mem_replicate hc]
  decide

private theorem visible_part (h : ∀ c ∈ ds, Visible c) (k : Nat) :
    (∀ c ∈ ds.take k, Visible c) ∧ ∀ c ∈ ds.drop k, Visible c := by
  constructor
  · intro c hc
    exact h c (List.mem_of_mem_take hc)
  · intro c hc
    exact h c (List.mem_of_mem_drop hc)

/-- `layPositional` of `Visible` digits is `Visible`. -/
theorem visible_layPositional (h : ∀ c ∈ ds, Visible c) (keepsPoint : Bool) (point : Int) :
    ∀ c ∈ layPositional keepsPoint ds point, Visible c := by
  have hzero : Visible '0' := by decide
  have hpoint : Visible '.' := by decide
  unfold layPositional
  split
  · simp only [List.forall_mem_cons, List.forall_mem_append]
    exact ⟨hzero, hpoint, visible_zeros _, h⟩
  · simp only [List.forall_mem_cons]
    exact ⟨hzero, hpoint, h⟩
  · next k _ =>
    obtain ⟨hwhole, hfrac⟩ := visible_part h k
    split
    · split
      · simp only [List.forall_mem_append, List.forall_mem_cons]
        exact ⟨⟨hwhole, visible_zeros _⟩, hpoint, hzero, by simp⟩
      · rw [List.forall_mem_append]
        exact ⟨hwhole, visible_zeros _⟩
    · simp only [List.forall_mem_append, List.forall_mem_cons]
      exact ⟨⟨hwhole, visible_zeros _⟩, hpoint, hfrac⟩

/-- `layScientific` of `Visible` digits is `Visible`. -/
theorem visible_layScientific (h : ∀ c ∈ ds, Visible c) (exponent : Int) :
    ∀ c ∈ layScientific ds exponent, Visible c := by
  obtain ⟨hfirst, hfrac⟩ := visible_part h 1
  have hpower := visible_ofInt exponent
  unfold layScientific
  simp only [List.forall_mem_append, List.forall_mem_cons]
  refine ⟨⟨hfirst, ?_⟩, by decide, ?_⟩
  · split
    · exact List.forall_mem_nil _
    · rw [List.forall_mem_cons]
      exact ⟨by decide, hfrac⟩
  · split
    · exact hpower
    · rw [List.forall_mem_cons]
      exact ⟨by decide, hpower⟩

end Interlock.Number

namespace Interlock.Json

open Text Interlock.Number

/-- Every character of `Number.text` is `Visible`. -/
theorem Number.visible_text (n : Number) : ∀ c ∈ n.text.toList, Visible c := by
  cases n with
  | whole i => exact visible_ofInt i
  | real x =>
    show ∀ c ∈ (floatFormat.render x).toList, Visible c
    cases x with
    | nan => decide
    | infinite s => cases s <;> decide
    | finite s m e =>
      have hsign : ∀ c ∈ (if s then ['-'] else []), Visible c := by
        cases s <;> decide
      have hdigits : ∀ c ∈ Nat.toDigits 10 (shortest m e).digits, Visible c := by
        intro c hc
        exact visible_of_mem_toDigits hc
      have hlaid (positional keepsPoint : Bool) (point : Int) :
          ∀ c ∈ (if positional then
            layPositional keepsPoint (Nat.toDigits 10 (shortest m e).digits) point
          else layScientific (Nat.toDigits 10 (shortest m e).digits) (point - 1)), Visible c := by
        split
        · exact visible_layPositional hdigits keepsPoint point
        · exact visible_layScientific hdigits (point - 1)
      simp only [FloatFormat.render]
      split
      · rw [String.toList_ofList, List.forall_mem_append]
        exact ⟨hsign, by decide⟩
      · rw [String.toList_ofList, List.forall_mem_append]
        exact ⟨hsign, hlaid _ _ _⟩

end Interlock.Json

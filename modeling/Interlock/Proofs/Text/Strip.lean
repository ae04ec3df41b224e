import Interlock.Text.Basic
import Mathlib.Data.List.DropRight

/-!
# Texts without something at their ends

`trim` and the reading of an address drop characters of one class at both ends (`strip`).
`exists_append_strip` says what goes, `unpadded_strip` that nothing of the class is left at an end,
and `strip_of_unpadded` that a text that is `Unpadded` stays as it is.
-/

namespace Interlock.Text

variable {p : Char → Bool} {cs : List Char}

/-- A list of characters without those of the class `p` at both ends. -/
def strip (p : Char → Bool) (cs : List Char) : List Char := (cs.dropWhile p).rdropWhile p

/-- Neither the first nor the last character is of the class. -/
structure Unpadded (p : Char → Bool) (cs : List Char) : Prop where
  first : ∀ c ∈ cs.head?, p c = false
  last : ∀ c ∈ cs.getLast?, p c = false

/-- What `strip` drops stands around what is left, and is of the class. -/
theorem exists_append_strip (p : Char → Bool) (cs : List Char) : ∃ before after,
    cs = before ++ strip p cs ++ after ∧ (∀ c ∈ before, p c = true) ∧
      ∀ c ∈ after, p c = true := by
  refine ⟨cs.takeWhile p, (cs.dropWhile p).rtakeWhile p, ?_, ?_, ?_⟩
  · unfold strip
    rw [List.append_assoc, List.rdropWhile_append_rtakeWhile, List.takeWhile_append_dropWhile]
  · intro c hc
    exact List.mem_takeWhile_imp hc
  · intro c hc
    exact List.mem_rtakeWhile_imp hc

theorem unpadded_strip (p : Char → Bool) (cs : List Char) : Unpadded p (strip p cs) := by
  constructor
  · intro c hc
    -- what is dropped at the end does not change the first character that is left
    obtain ⟨after, hafter⟩ : strip p cs <+: cs.dropWhile p := List.rdropWhile_prefix p _
    have hhead : (cs.dropWhile p).head? = some c := by
      rw [← hafter, List.head?_append_of_ne_nil _ (List.ne_nil_of_mem (List.mem_of_mem_head? hc))]
      exact hc
    have hnot := List.head?_dropWhile_not p cs
    rw [hhead] at hnot
    exact hnot
  · intro c hc
    obtain ⟨hne, rfl⟩ := List.mem_getLast?_eq_getLast hc
    have hnot := List.rdropWhile_last_not p (cs.dropWhile p) hne
    exact eq_false_of_ne_true hnot

theorem strip_of_unpadded (h : Unpadded p cs) : strip p cs = cs := by
  have hfirst : cs.dropWhile p = cs := by
    cases cs with
    | nil => rfl
    | cons c cs => exact List.dropWhile_cons_of_neg (by simp [h.first c rfl])
  unfold strip
  rw [hfirst, List.rdropWhile_eq_self_iff]
  intro hne
  have hlast := h.last _ (List.getLast?_eq_some_getLast hne)
  simp [hlast]

theorem unpadded_of_forall (h : ∀ c ∈ cs, p c = false) : Unpadded p cs where
  first c hc := h c (List.mem_of_mem_head? hc)
  last c hc := h c (List.mem_of_getLast? hc)

/-- `rdropWhile` of `cs ++ after` drops from `after` only, if `cs` ends in a character that stays.
-/
theorem rdropWhile_append_of_last {cs after : List Char} (hne : cs ≠ [])
    (h : ∀ c ∈ cs.getLast?, p c = false) :
    (cs ++ after).rdropWhile p = cs ++ after.rdropWhile p := by
  have hstays : cs.reverse.dropWhile p = cs.reverse := by
    obtain ⟨before, c, rfl⟩ : ∃ before c, cs = before ++ [c] :=
      ⟨cs.dropLast, cs.getLast hne, (List.dropLast_append_getLast hne).symm⟩
    have hc := h c (by simp)
    rw [List.reverse_append, List.reverse_singleton, List.singleton_append,
      List.dropWhile_cons_of_neg (by simp [hc])]
  unfold List.rdropWhile
  rw [List.reverse_append, List.dropWhile_append, hstays]
  split
  · next hempty =>
    rw [List.isEmpty_iff.mp hempty, List.reverse_reverse, List.reverse_nil, List.append_nil]
  · rw [List.reverse_append, List.reverse_reverse]

/-- `strip` of an `Unpadded` text with the class around it. -/
theorem strip_padded {before after : List Char} (h : Unpadded p cs)
    (hbefore : ∀ c ∈ before, p c = true) (hafter : ∀ c ∈ after, p c = true) :
    strip p (before ++ cs ++ after) = cs := by
  have hdropped : after.rdropWhile p = [] := List.rdropWhile_eq_nil_iff.mpr hafter
  unfold strip
  rw [List.append_assoc, List.dropWhile_append_of_pos hbefore]
  cases cs with
  | nil => rw [List.nil_append, List.dropWhile_eq_nil_iff.mpr hafter, List.rdropWhile_nil]
  | cons c cs =>
    rw [List.cons_append, List.dropWhile_cons_of_neg (by simp [h.first c rfl]), ← List.cons_append,
      rdropWhile_append_of_last (List.cons_ne_nil c cs) h.last, hdropped, List.append_nil]

/-- `trim` is `strip isBlank`. -/
theorem toList_trim (s : String) : (trim s).toList = strip isBlank s.toList := by
  show (String.ofList _).toList = _
  rw [String.toList_ofList]
  rfl

/-- `trim` of an `Unpadded` text is the text. -/
theorem trim_of_unpadded {s : String} (h : Unpadded isBlank s.toList) : trim s = s := by
  apply String.toList_injective
  rw [toList_trim, strip_of_unpadded h]

theorem unpadded_trim (s : String) : Unpadded isBlank (trim s).toList := by
  rw [toList_trim]
  exact unpadded_strip isBlank s.toList

/-- `trim s` is empty if and only if every character is blank. -/
theorem trim_eq_empty_iff (s : String) : trim s = "" ↔ ∀ c ∈ s.toList, isBlank c = true := by
  rw [← String.toList_eq_nil_iff, toList_trim]
  constructor
  · intro hnil
    obtain ⟨before, after, hs, hbefore, hafter⟩ := exists_append_strip isBlank s.toList
    rw [hnil, List.append_nil] at hs
    rw [hs, List.forall_mem_append]
    exact ⟨hbefore, hafter⟩
  · intro hblank
    unfold strip
    rw [List.dropWhile_eq_nil_iff.mpr hblank]
    rfl

end Interlock.Text

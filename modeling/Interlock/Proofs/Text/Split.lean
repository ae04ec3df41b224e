import Interlock.Text.Basic
import Mathlib.Data.List.Basic

/-!
# Lists that are cut and lists that are read

Addresses are cut at points, colons and slashes, and each part is read on its own. The parts of
`xs.splitOnP p` hold elements of `xs` with `p x = false` (`forall_of_mem_splitOnP`), and
`xs.mapM f = some ys` if and only if `xs.map f = ys.map some` (`mapM_eq_some_iff`).
-/

namespace Interlock.Text

variable {α β : Type}

/-- A part of `splitOnP` holds elements of the list, and no mark. -/
theorem forall_of_mem_splitOnP {p : α → Bool} {xs part : List α} (h : part ∈ xs.splitOnP p) :
    ∀ x ∈ part, x ∈ xs ∧ p x = false := by
  induction xs generalizing part with
  | nil =>
    rw [List.splitOnP_nil, List.mem_singleton] at h
    rw [h]
    exact List.forall_mem_nil _
  | cons y ys ih =>
    rw [List.splitOnP_cons_eq_if_modifyHead] at h
    obtain ⟨first, others, hsplit⟩ := List.exists_cons_of_ne_nil (List.splitOnP_ne_nil p ys)
    have hlater : ∀ part ∈ ys.splitOnP p, ∀ x ∈ part, x ∈ y :: ys ∧ p x = false := by
      intro part hpart x hx
      obtain ⟨hmem, hp⟩ := ih hpart x hx
      exact ⟨List.mem_cons_of_mem _ hmem, hp⟩
    split at h
    · rcases List.mem_cons.mp h with rfl | h
      · exact List.forall_mem_nil _
      · exact hlater part h
    · next hy =>
      rw [hsplit, List.modifyHead_cons] at h
      rw [hsplit, List.forall_mem_cons] at hlater
      rcases List.mem_cons.mp h with rfl | h
      · exact List.forall_mem_cons.mpr
          ⟨⟨List.mem_cons_self, eq_false_of_ne_true hy⟩, hlater.1⟩
      · exact hlater.2 part h

/-- `mapM` succeeds if and only if every element is read. -/
theorem mapM_eq_some_iff {f : α → Option β} {xs : List α} {ys : List β} :
    xs.mapM f = some ys ↔ xs.map f = ys.map some := by
  induction xs generalizing ys with
  | nil => cases ys <;> simp
  | cons x xs ih =>
    rw [List.mapM_cons]
    cases hx : f x with
    | none => cases ys <;> simp [hx]
    | some y => cases ys <;> simp [hx, Option.bind_eq_some_iff, ih, and_comm]

/-- The characters of `join`. -/
theorem toList_join (sep : String) (texts : List String) :
    (join sep texts).toList = sep.toList.intercalate (texts.map String.toList) := by
  induction texts with
  | nil => rfl
  | cons s texts ih =>
    cases texts with
    | nil => rw [join, List.map_singleton, List.intercalate_singleton]
    | cons t texts =>
      rw [join, String.toList_append, String.toList_append, ih]
      · simp only [List.map_cons, List.intercalate_cons_cons]
      · exact List.cons_ne_nil _ _

/-- What joined parts hold is the mark, or is held by a part. -/
theorem mem_intercalate_singleton {mark x : α} {parts : List (List α)}
    (h : x ∈ [mark].intercalate parts) : x = mark ∨ ∃ part ∈ parts, x ∈ part := by
  induction parts with
  | nil => cases h
  | cons part parts ih =>
    cases parts with
    | nil =>
      rw [List.intercalate_singleton] at h
      exact .inr ⟨part, List.mem_cons_self, h⟩
    | cons next parts =>
      rw [List.intercalate_cons_cons] at h
      rcases List.mem_append.mp h with h | h
      · rcases List.mem_append.mp h with h | h
        · exact .inr ⟨part, List.mem_cons_self, h⟩
        · exact .inl (List.mem_singleton.mp h)
      · rcases ih h with h | ⟨p, hp, hx⟩
        · exact .inl h
        · exact .inr ⟨p, List.mem_cons_of_mem _ hp, hx⟩

end Interlock.Text

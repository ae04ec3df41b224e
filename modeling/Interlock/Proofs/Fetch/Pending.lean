import Interlock.Fetch.Slot
import Mathlib.Data.List.Induction
import Mathlib.Algebra.BigOperators.Group.List.Basic
import Mathlib.Algebra.Ring.Int.Defs
import Mathlib.Data.Int.Order.Basic
import Mathlib.Order.Bounds.Defs
import Mathlib.Order.MinMax

/-!
# The fetches that a slot counts

`Slot.inFlight` counts the fetches under way, and `settle` lets a landing without a fetch pass. So
the count is not `balance es`, what has begun less what has landed: a landing that came too many is
forgotten. It is the greatest `balance t` over the ends `t` of `es` (`isGreatest_inFlight`), the
empty end among them, so it is never negative, and what comes later counts as if a landing without a
fetch had not been (`steps_settle_of_unfetched`). The phase is `.fetching` if and only if `inFlight`
is positive (`fetching_iff_steps`).
-/

namespace Interlock.Slot

variable {α : Type}

/-- What can be done to a slot: `Slot.begin` and `Slot.settle`. -/
inductive Event (α : Type)
  | begin
  | settle (r : FetchResult) (canonical : α) (now : Instant)

/-- One event. -/
def step (s : Slot α) : Event α → Slot α
  | .begin => s.begin
  | .settle r canonical now => s.settle r canonical now

/-- A sequence of events. -/
def steps (s : Slot α) (es : List (Event α)) : Slot α := es.foldl step s

/-- What an event adds to `inFlight`: `1` or `-1`. -/
def Event.weight : Event α → ℤ
  | .begin => 1
  | .settle .. => -1

/-- The sum of `Event.weight`: the fetches that begin less those that land. -/
def balance (es : List (Event α)) : ℤ := (es.map Event.weight).sum

@[simp] theorem balance_nil : balance ([] : List (Event α)) = 0 := rfl

@[simp] theorem balance_concat (es : List (Event α)) (e : Event α) :
    balance (es ++ [e]) = balance es + e.weight := by
  simp [balance]

theorem steps_concat (s : Slot α) (es : List (Event α)) (e : Event α) :
    s.steps (es ++ [e]) = (s.steps es).step e := by
  unfold steps
  rw [List.foldl_append]
  rfl

/-! ## The phase -/

/-- `phase = .fetching` if and only if `0 < inFlight`. -/
def Coherent (s : Slot α) : Prop := s.phase = .fetching ↔ 0 < s.inFlight

theorem coherent_fresh (unknown : α) : (fresh unknown).Coherent := by
  simp [Coherent, fresh]

/-- Every event keeps a slot `Coherent`. -/
theorem Coherent.step {s : Slot α} (h : s.Coherent) (e : Event α) : (s.step e).Coherent := by
  unfold Coherent at h ⊢
  cases e with
  | begin => simp [Slot.step, Slot.begin]
  | settle r canonical now =>
    show (if s.inFlight - 1 = 0 then FetchPhase.idle else s.phase) = .fetching ↔
      0 < s.inFlight - 1
    by_cases hlast : s.inFlight - 1 = 0
    · simp [hlast]
    · rw [if_neg hlast, h]
      omega

/-- `steps` keep a slot `Coherent`, so that `.fetching` is shown if and only if a fetch is counted.
-/
theorem fetching_iff_steps {s : Slot α} (h : s.Coherent) (es : List (Event α)) :
    (s.steps es).Coherent := by
  induction es generalizing s with
  | nil => exact h
  | cons e es ih => exact ih (h.step e)

/-! ## The count -/

/-- One event takes the count `n` to `max 0 (n + e.weight)`. -/
theorem inFlight_step (s : Slot α) (e : Event α) :
    ((s.step e).inFlight : ℤ) = max 0 (s.inFlight + e.weight) := by
  cases e with
  | begin =>
    show ((s.inFlight + 1 : ℕ) : ℤ) = max 0 ((s.inFlight : ℤ) + 1)
    omega
  | settle r canonical now =>
    show ((s.inFlight - 1 : ℕ) : ℤ) = max 0 ((s.inFlight : ℤ) + -1)
    omega

/-- `inFlight` is the greatest `balance t` over the ends `t <:+ es`. -/
theorem isGreatest_inFlight (unknown : α) (es : List (Event α)) :
    IsGreatest {n | ∃ t, t <:+ es ∧ n = balance t} (((fresh unknown).steps es).inFlight : ℤ) := by
  induction es using List.reverseRecOn with
  | nil =>
    refine ⟨⟨[], List.suffix_rfl, rfl⟩, ?_⟩
    rintro n ⟨t, ht, rfl⟩
    rw [List.suffix_nil.1 ht]
    rfl
  | append_singleton es e ih =>
    obtain ⟨⟨longest, hlongest, hcount⟩, hgreatest⟩ := ih
    rw [steps_concat, inFlight_step]
    constructor
    · -- the end that was the greatest goes on, unless the empty one is greater now
      rcases max_choice 0 ((((fresh unknown).steps es).inFlight : ℤ) + e.weight) with hmax | hmax
      · exact ⟨[], List.nil_suffix, by rw [hmax, balance_nil]⟩
      · refine ⟨longest ++ [e], List.suffix_append_self_iff.2 hlongest, ?_⟩
        rw [hmax, balance_concat, hcount]
    · rintro n ⟨t, ht, rfl⟩
      rcases List.suffix_concat_iff.1 ht with rfl | ⟨before, rfl, hbefore⟩
      · exact le_max_left _ _
      · have hle : balance before ≤ ((fresh unknown).steps es).inFlight :=
          hgreatest ⟨before, hbefore, rfl⟩
        rw [balance_concat]
        exact le_max_of_le_right (by omega)

/-! ## Landings without a fetch -/

/-- `inFlight` and `phase` after an event depend on `inFlight` and `phase` before it alone. -/
theorem step_congr {s s' : Slot α} (hcount : s.inFlight = s'.inFlight) (hphase : s.phase = s'.phase)
    (e : Event α) :
    (s.step e).inFlight = (s'.step e).inFlight ∧ (s.step e).phase = (s'.step e).phase := by
  cases e with
  | begin => exact ⟨congrArg (· + 1) hcount, rfl⟩
  | settle r canonical now => simp only [step, settle, hcount, hphase, and_self]

/-- `step_congr` for a sequence of events. -/
theorem steps_congr {s s' : Slot α} (hcount : s.inFlight = s'.inFlight)
    (hphase : s.phase = s'.phase) (es : List (Event α)) :
    (s.steps es).inFlight = (s'.steps es).inFlight ∧ (s.steps es).phase = (s'.steps es).phase := by
  induction es generalizing s s' with
  | nil => exact ⟨hcount, hphase⟩
  | cons e es ih =>
    obtain ⟨hcount, hphase⟩ := step_congr hcount hphase e
    exact ih hcount hphase

/-- Where `inFlight = 0`, a `settle` takes nothing away from later counts. -/
theorem steps_settle_of_unfetched {s : Slot α} (h : s.Coherent) (hnone : s.inFlight = 0)
    (r : FetchResult) (canonical : α) (now : Instant) (es : List (Event α)) :
    ((s.settle r canonical now).steps es).inFlight = (s.steps es).inFlight ∧
      ((s.settle r canonical now).steps es).phase = (s.steps es).phase := by
  have hidle : s.phase = .idle := by
    cases hphase : s.phase with
    | idle => rfl
    | fetching =>
      have hpos := h.1 hphase
      omega
  refine steps_congr ?_ ?_ es
  · simp [settle, hnone]
  · simp [settle, hnone, hidle]

end Interlock.Slot

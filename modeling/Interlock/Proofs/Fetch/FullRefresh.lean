import Interlock.Fetch.Snapshot
import Mathlib.Data.List.Induction
import Mathlib.Tactic.ByContra

/-!
# How old the state is

`Snapshot.lastFullRefresh` is `none` until every source has settled, and then the oldest of the four
`updatedAt`. A `Slot.settle` moves it by its `now` alone, whatever its `FetchResult`, and
`Slot.begin` does not move it.

* `lastFullRefresh_eq_some_iff`, `lastFullRefresh_eq_none_iff`: the age of one snapshot.
* `updatedAt_steps`: the `updatedAt` of a slot is `latest k (settled es)`.
* `exists_le_step`, `exists_le_steps`: while time is `InOrder`, the age is not lost and does not go
  back.
* `step_of_ne_oldest`: only a source whose `updatedAt` is the age can move it.
-/

namespace Interlock

namespace Instant

theorem min_le_left (a b : Instant) : a.min b ≤ a := by
  unfold min
  split
  · next h => exact Int.le_of_lt h
  · exact Int.le_refl a.ms

theorem min_le_right (a b : Instant) : a.min b ≤ b := by
  unfold min
  split
  · exact Int.le_refl b.ms
  · next h => exact Int.not_lt.1 h

theorem min_choice (a b : Instant) : a.min b = a ∨ a.min b = b := by
  unfold min
  split
  · exact .inr rfl
  · exact .inl rfl

theorem le_trans {a b c : Instant} (h : a ≤ b) (h' : b ≤ c) : a ≤ c := Int.le_trans h h'

theorem le_antisymm {a b : Instant} (h : a ≤ b) (h' : b ≤ a) : a = b :=
  congrArg Instant.mk (Int.le_antisymm h h')

end Instant

namespace Snapshot

/-! ## The oldest of the latest moments -/

/-- Every source has a `latest` moment, and `t` is the least of the four. -/
structure IsOldest (latest : Source → Option Instant) (t : Instant) : Prop where
  attained : ∃ k, latest k = some t
  least : ∀ k, ∃ t', latest k = some t' ∧ t ≤ t'

theorem IsOldest.unique {latest : Source → Option Instant} {t t' : Instant}
    (h : IsOldest latest t) (h' : IsOldest latest t') : t = t' := by
  have hle {a b : Instant} (ha : IsOldest latest a) (hb : IsOldest latest b) : a ≤ b := by
    obtain ⟨k, hk⟩ := hb.attained
    obtain ⟨t, ht, hat⟩ := ha.least k
    rw [hk] at ht
    cases ht
    exact hat
  exact Instant.le_antisymm (hle h h') (hle h' h)

/-- `earlier` is `none` as long as one of the moments is. -/
theorem earlier_eq_none_iff {a b : Option Instant} :
    earlier a b = none ↔ a = none ∨ b = none := by
  cases a <;> cases b <;> simp [earlier]

/-- `earlier a b` is `a` or `b`, and `≤` both. -/
theorem of_earlier {a b : Option Instant} {t : Instant} (h : earlier a b = some t) :
    (a = some t ∨ b = some t) ∧ (∃ t', a = some t' ∧ t ≤ t') ∧ ∃ t', b = some t' ∧ t ≤ t' := by
  cases a with
  | none => cases h
  | some x =>
    cases b with
    | none => cases h
    | some y =>
      obtain rfl : x.min y = t := Option.some.inj h
      refine ⟨?_, ⟨x, rfl, x.min_le_left y⟩, y, rfl, x.min_le_right y⟩
      rcases x.min_choice y with hmin | hmin
      · exact .inl (by rw [hmin])
      · exact .inr (by rw [hmin])

theorem lastFullRefresh_eq_none_iff (s : Snapshot) :
    s.lastFullRefresh = none ↔ ∃ k, (s.slot k).updatedAt = none := by
  unfold lastFullRefresh
  simp only [earlier_eq_none_iff]
  constructor
  · rintro (((h | h) | h) | h)
    · exact ⟨.intent, h⟩
    · exact ⟨.chain, h⟩
    · exact ⟨.executor, h⟩
    · exact ⟨.risk, h⟩
  · rintro ⟨k, h⟩
    cases k with
    | intent => exact .inl (.inl (.inl h))
    | chain => exact .inl (.inl (.inr h))
    | executor => exact .inl (.inr h)
    | risk => exact .inr h

/-- One direction of `lastFullRefresh_eq_some_iff`. -/
theorem isOldest_of_lastFullRefresh {s : Snapshot} {t : Instant} (h : s.lastFullRefresh = some t) :
    IsOldest (fun k => (s.slot k).updatedAt) t := by
  obtain ⟨hlast, ⟨t₃, hthree, hle₃⟩, hrisk⟩ := of_earlier h
  obtain ⟨-, ⟨t₂, htwo, hle₂⟩, t₁, hexecutor, hle₁⟩ := of_earlier hthree
  obtain ⟨-, ⟨t₀, hintent, hle₀⟩, t', hchain, hle'⟩ := of_earlier htwo
  have hle : t ≤ t₂ := Instant.le_trans hle₃ hle₂
  constructor
  · rcases hlast with hlast | hlast
    · rcases (of_earlier hlast).1 with hlast | hlast
      · rcases (of_earlier hlast).1 with hlast | hlast
        · exact ⟨.intent, hlast⟩
        · exact ⟨.chain, hlast⟩
      · exact ⟨.executor, hlast⟩
    · exact ⟨.risk, hlast⟩
  · intro k
    cases k with
    | intent => exact ⟨t₀, hintent, Instant.le_trans hle hle₀⟩
    | chain => exact ⟨t', hchain, Instant.le_trans hle hle'⟩
    | executor => exact ⟨t₁, hexecutor, Instant.le_trans hle₃ hle₁⟩
    | risk => exact hrisk

/-- `lastFullRefresh` is `some t` if and only if `t` is the least of the four `updatedAt`. -/
theorem lastFullRefresh_eq_some_iff {s : Snapshot} {t : Instant} :
    s.lastFullRefresh = some t ↔ IsOldest (fun k => (s.slot k).updatedAt) t := by
  constructor
  · exact isOldest_of_lastFullRefresh
  · intro h
    cases hage : s.lastFullRefresh with
    | none =>
      obtain ⟨k, hk⟩ := (lastFullRefresh_eq_none_iff s).1 hage
      obtain ⟨t', ht', -⟩ := h.least k
      rw [hk] at ht'
      cases ht'
    | some t' => rw [h.unique (isOldest_of_lastFullRefresh hage)]

/-! ## When a source settled last -/

/-- What can be done to a snapshot: `begin` or `settle` in the slot of one source. -/
inductive Event
  | begin (k : Source)
  | settle (k : Source) (r : FetchResult) (record : k.Record) (now : Instant)

/-- One event. -/
def step (s : Snapshot) : Event → Snapshot
  | .begin k => s.begin k
  | .settle k r record now => s.modify k (Slot.settle r record now)

/-- A sequence of events. -/
def steps (s : Snapshot) (es : List Event) : Snapshot := es.foldl step s

/-- The source that settles in an event, and `now`. -/
def Event.settled? : Event → Option (Source × Instant)
  | .begin _ => none
  | .settle k _ _ now => some (k, now)

/-- The `settled?` of a sequence, in order. -/
def settled (es : List Event) : List (Source × Instant) := es.filterMap Event.settled?

/-- The moment of `x`, if it is the source `k` that settled. -/
def ofSource (k : Source) (x : Source × Instant) : Option Instant :=
  if x.1 = k then some x.2 else none

theorem ofSource_eq_some_iff {k : Source} {x : Source × Instant} {t : Instant} :
    ofSource k x = some t ↔ x = (k, t) := by
  obtain ⟨k', t'⟩ := x
  unfold ofSource
  split
  · next hk =>
    cases hk
    simp
  · next hk =>
    refine iff_of_false nofun ?_
    rintro ⟨⟩
    exact hk rfl

/-- The moment of the last entry of `k`. -/
def latest (k : Source) (xs : List (Source × Instant)) : Option Instant :=
  (xs.filterMap (ofSource k)).getLast?

/-- The moments of `settled es` do not decrease. -/
def InOrder (es : List Event) : Prop := (settled es).Pairwise fun x y => x.2 ≤ y.2

theorem mem_of_latest {k : Source} {xs : List (Source × Instant)} {t : Instant}
    (h : latest k xs = some t) : (k, t) ∈ xs := by
  obtain ⟨x, hmem, hsource⟩ := List.mem_filterMap.1 (List.mem_of_getLast? h)
  rw [ofSource_eq_some_iff] at hsource
  rw [← hsource]
  exact hmem

/-- `latest k xs` is `none` if and only if `k` is not in `xs`. -/
theorem latest_eq_none_iff {k : Source} {xs : List (Source × Instant)} :
    latest k xs = none ↔ ∀ t, (k, t) ∉ xs := by
  unfold latest
  rw [List.getLast?_eq_none_iff, List.filterMap_eq_nil_iff]
  constructor
  · intro h t hmem
    have hsource : ofSource k (k, t) = some t := ofSource_eq_some_iff.2 rfl
    rw [h (k, t) hmem] at hsource
    cases hsource
  · intro h x hmem
    rw [Option.eq_none_iff_forall_ne_some]
    intro t hsource
    rw [ofSource_eq_some_iff] at hsource
    rw [hsource] at hmem
    exact h t hmem

/-- `latest` after one more event. -/
theorem latest_concat (k : Source) (es : List Event) (e : Event) :
    latest k (settled (es ++ [e])) = (e.settled?.bind (ofSource k)).or (latest k (settled es)) := by
  unfold latest settled
  rw [List.filterMap_append, List.filterMap_append, List.getLast?_append]
  cases hsettled : e.settled? with
  | none => simp [hsettled]
  | some x => cases hsource : ofSource k x <;> simp [hsettled, hsource]

/-- An event moves the `updatedAt` of the source it settles, to its `now`, and no other. -/
theorem updatedAt_step (s : Snapshot) (e : Event) (k : Source) :
    ((s.step e).slot k).updatedAt =
      (e.settled?.bind (ofSource k)).or (s.slot k).updatedAt := by
  cases e with
  | begin k' =>
    show ((s.modify k' Slot.begin).slot k).updatedAt = (s.slot k).updatedAt
    by_cases hk : k = k'
    · subst hk
      rw [slot_modify_self]
      rfl
    · rw [slot_modify_of_ne s hk]
  | settle k' r record now =>
    show ((s.modify k' (Slot.settle r record now)).slot k).updatedAt =
      (ofSource k (k', now)).or (s.slot k).updatedAt
    unfold ofSource
    by_cases hk : k = k'
    · subst hk
      rw [slot_modify_self, if_pos rfl]
      rfl
    · rw [slot_modify_of_ne s hk, if_neg (Ne.symm hk), Option.none_or]

theorem steps_concat (s : Snapshot) (es : List Event) (e : Event) :
    s.steps (es ++ [e]) = (s.steps es).step e := by
  unfold steps
  rw [List.foldl_append]
  rfl

/-- The `updatedAt` of a slot is `latest k (settled es)`, whatever the results were. -/
theorem updatedAt_steps (es : List Event) (k : Source) :
    ((fresh.steps es).slot k).updatedAt = latest k (settled es) := by
  induction es using List.reverseRecOn with
  | nil => cases k <;> rfl
  | append_singleton es e ih => rw [steps_concat, updatedAt_step, latest_concat, ih]

/-! ## One more event -/

/-- The `now` of a `settle` is not before the `updatedAt` of its source. -/
def Event.After (s : Snapshot) (e : Event) : Prop :=
  ∀ k now, e.settled? = some (k, now) → ∀ t, (s.slot k).updatedAt = some t → t ≤ now

section

variable {s : Snapshot} {e : Event} {k : Source} {t : Instant}

/-- No `updatedAt` goes back in an event that comes `After`. -/
theorem le_updatedAt_step (h : e.After s) (ht : (s.slot k).updatedAt = some t) :
    ∃ t', ((s.step e).slot k).updatedAt = some t' ∧ t ≤ t' := by
  rw [updatedAt_step, ht]
  cases hsettled : e.settled?.bind (ofSource k) with
  | none => exact ⟨t, rfl, Int.le_refl t.ms⟩
  | some now =>
    obtain ⟨x, he, hsource⟩ := Option.bind_eq_some_iff.1 hsettled
    rw [ofSource_eq_some_iff] at hsource
    rw [hsource] at he
    exact ⟨now, rfl, h k now he t ht⟩

/-- `lastFullRefresh` does not go back in an event that comes `After`, and stays `some`. -/
theorem exists_le_step (h : e.After s) (ht : s.lastFullRefresh = some t) :
    ∃ t', (s.step e).lastFullRefresh = some t' ∧ t ≤ t' := by
  have holdest := lastFullRefresh_eq_some_iff.1 ht
  cases hage : (s.step e).lastFullRefresh with
  | none =>
    obtain ⟨k, hnone⟩ := (lastFullRefresh_eq_none_iff _).1 hage
    obtain ⟨x, hx, -⟩ := holdest.least k
    obtain ⟨y, hy, -⟩ := le_updatedAt_step h hx
    rw [hnone] at hy
    cases hy
  | some t' =>
    -- the source that is the oldest after the event was not older than the oldest before it
    obtain ⟨k, hk⟩ := (lastFullRefresh_eq_some_iff.1 hage).attained
    obtain ⟨x, hx, hle⟩ := holdest.least k
    obtain ⟨y, hy, hle'⟩ := le_updatedAt_step h hx
    rw [hk] at hy
    cases hy
    exact ⟨t', rfl, Instant.le_trans hle hle'⟩

/-- An event moves `lastFullRefresh` only if it settles a source whose `updatedAt` is the age. -/
theorem step_of_ne_oldest (h : e.After s) (ht : s.lastFullRefresh = some t)
    (hmoved : (s.step e).lastFullRefresh ≠ some t) :
    ∃ k now, e.settled? = some (k, now) ∧ (s.slot k).updatedAt = some t := by
  have holdest := lastFullRefresh_eq_some_iff.1 ht
  by_contra hother
  refine hmoved (lastFullRefresh_eq_some_iff.2 ⟨?_, ?_⟩)
  · -- a source that settled longest ago is left alone
    obtain ⟨k, hk⟩ := holdest.attained
    refine ⟨k, ?_⟩
    have halone : e.settled?.bind (ofSource k) = none := by
      rw [Option.bind_eq_none_iff]
      intro x he
      rw [Option.eq_none_iff_forall_ne_some]
      intro now hsource
      rw [ofSource_eq_some_iff] at hsource
      rw [hsource] at he
      exact hother ⟨k, now, he, hk⟩
    rw [updatedAt_step, halone, Option.none_or]
    exact hk
  · intro k
    obtain ⟨x, hx, hle⟩ := holdest.least k
    obtain ⟨y, hy, hle'⟩ := le_updatedAt_step h hx
    exact ⟨y, hy, Instant.le_trans hle hle'⟩

end

/-! ## Sequences of events -/

/-- In a sequence `InOrder`, the last event comes `After` the others. -/
theorem InOrder.after {es : List Event} {e : Event} (h : InOrder (es ++ [e])) :
    e.After (fresh.steps es) := by
  intro k now he t ht
  rw [updatedAt_steps] at ht
  unfold InOrder settled at h
  rw [List.filterMap_append, List.pairwise_append] at h
  exact h.2.2 (k, t) (mem_of_latest ht) (k, now) (by simp [he])

theorem InOrder.left {es es' : List Event} (h : InOrder (es ++ es')) : InOrder es := by
  unfold InOrder settled at h
  rw [List.filterMap_append, List.pairwise_append] at h
  exact h.1

/-- Along a sequence `InOrder`, `lastFullRefresh` does not go back and stays `some`. -/
theorem exists_le_steps {es es' : List Event} (h : InOrder (es ++ es')) {t : Instant}
    (ht : (fresh.steps es).lastFullRefresh = some t) :
    ∃ t', (fresh.steps (es ++ es')).lastFullRefresh = some t' ∧ t ≤ t' := by
  induction es' using List.reverseRecOn with
  | nil =>
    rw [List.append_nil]
    exact ⟨t, ht, Int.le_refl t.ms⟩
  | append_singleton es' e ih =>
    rw [← List.append_assoc] at h ⊢
    obtain ⟨t', ht', hle⟩ := ih h.left
    rw [steps_concat]
    obtain ⟨t'', ht'', hle'⟩ := exists_le_step h.after ht'
    exact ⟨t'', ht'', Instant.le_trans hle hle'⟩

/-- `lastFullRefresh` is `none` until all four sources have settled, then the least `latest k` of
them. It depends on `settled es` alone. While time is `InOrder` it never decreases, and only a
source that settled at the age moves it. -/
theorem age_is_oldest (es : List Event) :
    let age (es : List Event) := (fresh.steps es).lastFullRefresh
    ((∃ k, ∀ t, (k, t) ∉ settled es) → age es = none) ∧
    ((∀ k, ∃ t, (k, t) ∈ settled es) →
      ∃ t, age es = some t ∧ IsOldest (fun k => latest k (settled es)) t) ∧
    (∀ k, age (es ++ [.begin k]) = age es) ∧
    (∀ es', settled es' = settled es → age es' = age es) ∧
    (∀ t, age es = some t → ∀ es', InOrder (es ++ es') → ∃ t', age (es ++ es') = some t' ∧ t ≤ t') ∧
    ∀ t e, age es = some t → InOrder (es ++ [e]) → age (es ++ [e]) ≠ some t →
      ∃ k now, e.settled? = some (k, now) ∧ latest k (settled es) = some t := by
  intro age
  have hslots : (fun k => ((fresh.steps es).slot k).updatedAt) =
      fun k => latest k (settled es) := funext (updatedAt_steps es)
  have hcongr {es es' : List Event} (h : settled es' = settled es) : age es' = age es := by
    apply Option.ext
    intro t
    show (fresh.steps es').lastFullRefresh = some t ↔ (fresh.steps es).lastFullRefresh = some t
    simp only [lastFullRefresh_eq_some_iff, updatedAt_steps, h]
  refine ⟨?_, ?_, ?_, fun es' => hcongr, ?_, ?_⟩
  · rintro ⟨k, hk⟩
    refine (lastFullRefresh_eq_none_iff _).2 ⟨k, ?_⟩
    rw [updatedAt_steps, latest_eq_none_iff]
    exact hk
  · intro hall
    cases hage : age es with
    | none =>
      obtain ⟨k, hk⟩ := (lastFullRefresh_eq_none_iff _).1 hage
      obtain ⟨t, ht⟩ := hall k
      rw [updatedAt_steps, latest_eq_none_iff] at hk
      exact absurd ht (hk t)
    | some t =>
      refine ⟨t, rfl, ?_⟩
      rw [← hslots]
      exact lastFullRefresh_eq_some_iff.1 hage
  · intro k
    apply hcongr
    unfold settled
    simp [Event.settled?]
  · intro t ht es' horder
    exact exists_le_steps horder ht
  · intro t e ht horder hmoved
    have hstep : age (es ++ [e]) = ((fresh.steps es).step e).lastFullRefresh :=
      congrArg lastFullRefresh (steps_concat fresh es e)
    rw [hstep] at hmoved
    obtain ⟨k, now, he, hk⟩ := step_of_ne_oldest horder.after ht hmoved
    rw [updatedAt_steps] at hk
    exact ⟨k, now, he, hk⟩

end Snapshot

end Interlock

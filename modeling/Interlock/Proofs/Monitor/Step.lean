import Interlock.Monitor

/-!
# What one event does to a monitor

`closed_step`, `version_step` and `slot_step` say what an event does to each part of a monitor, and
what it depends on: a slot depends on itself and on whether the monitor is closed, on nothing else.
A closed monitor stays as it is (`run_of_closed`). A fetch to the end, of one source or of all, is a
run of events (`refresh_eq_run`, `refreshAll_eq_run`).
-/

namespace Interlock.Monitor

/-- Whether an event is `.close`. -/
def Event.isClose : Event → Bool
  | .close => true
  | _ => false

/-- What `step` does to the slot of `k` while the monitor is open. -/
def Event.onSlot (k : Source) : Event → Slot k.Record → Slot k.Record
  | .begin k', s => if k' = k then s.begin else s
  | .land k' r now, s => if k' = k then s.settle r (k.read r.usablePayload) now else s
  | .close, s => s

/-! ## Single events -/

/-- `run` changes nothing where `closed` is set. -/
theorem run_of_closed {m : Monitor} (h : m.closed = true) (es : List Event) : m.run es = m := by
  induction es with
  | nil => rfl
  | cons e es ih =>
    have hstep : m.step e = m := by
      cases e with
      | begin k => simp [step, begin, h]
      | land k r now => simp [step, land, h]
      | close =>
        obtain ⟨snapshot, version, closed⟩ := m
        cases h
        rfl
    show (m.step e).run es = m
    rw [hstep]
    exact ih

variable (m : Monitor) (e : Event)

/-- `closed` is set by `.close`, and no event takes it back. -/
theorem closed_step : (m.step e).closed = (m.closed || e.isClose) := by
  cases hclosed : m.closed with
  | true =>
    show (m.run [e]).closed = true
    rw [run_of_closed hclosed]
    exact hclosed
  | false =>
    cases e with
    | close => rfl
    | begin k => simp [step, begin, hclosed, Event.isClose]
    | land k r now => simp [step, land, hclosed, Event.isClose]

/-- An open monitor counts one `version` up at every event but `.close`. -/
theorem version_step : (m.step e).version =
    if m.closed = false ∧ e.isClose = false then m.version + 1 else m.version := by
  cases hclosed : m.closed with
  | true =>
    show (m.run [e]).version = _
    rw [run_of_closed hclosed, if_neg (by simp)]
  | false =>
    cases e with
    | close => rfl
    | begin k => simp [step, begin, hclosed, Event.isClose]
    | land k r now => simp [step, land, hclosed, Event.isClose]

/-- The slot of `k` after a step depends on the slot before and on `closed` alone. -/
theorem slot_step (k : Source) : (m.step e).snapshot.slot k =
    if m.closed then m.snapshot.slot k else e.onSlot k (m.snapshot.slot k) := by
  cases hclosed : m.closed with
  | true =>
    show (m.run [e]).snapshot.slot k = _
    rw [run_of_closed hclosed, if_pos rfl]
  | false =>
    rw [if_neg Bool.false_ne_true]
    cases e with
    | close => rfl
    | begin k' =>
      simp only [step, begin, hclosed, Bool.false_eq_true, if_false, Snapshot.begin, Event.onSlot]
      by_cases hk : k' = k
      · subst hk
        rw [Snapshot.slot_modify_self, if_pos rfl]
      · rw [Snapshot.slot_modify_of_ne _ (Ne.symm hk), if_neg hk]
    | land k' r now =>
      simp only [step, land, hclosed, Bool.false_eq_true, if_false, Snapshot.settle, Event.onSlot]
      by_cases hk : k' = k
      · subst hk
        rw [Snapshot.slot_modify_self, if_pos rfl]
      · rw [Snapshot.slot_modify_of_ne _ (Ne.symm hk), if_neg hk]

/-! ## Requests -/

/-- The source whose status an event requests: `k` for `.begin k`. -/
def Event.request? (m : Monitor) : Event → Option Source
  | .begin k => if (m.begin k).1 then some k else none
  | _ => none

/-- The sources whose status `run` requests, in order. -/
def requested (m : Monitor) : List Event → List Source
  | [] => []
  | e :: es => (e.request? m).toList ++ requested (m.step e) es

theorem requested_of_closed {m : Monitor} (h : m.closed = true) (es : List Event) :
    m.requested es = [] := by
  induction es with
  | nil => rfl
  | cons e es ih =>
    have hrequest : e.request? m = none := by
      cases e with
      | begin k => simp [Event.request?, begin, h]
      | land | close => rfl
    have hstep : m.step e = m := run_of_closed h [e]
    rw [requested, hrequest, hstep, ih]
    rfl

/-! ## Fetches to the end -/

theorem run_append (es es' : List Event) : m.run (es ++ es') = (m.run es).run es' := by
  unfold run
  rw [List.foldl_append]

/-- The events of `refreshAll`: `.begin k` and `.land k` for each `k` of `Source.all`. -/
def fetchAll (results : Source → FetchResult) (now : Instant) : List Event :=
  Source.all.flatMap fun k => [.begin k, .land k (results k) now]

/-- `refresh k` is `.begin k` and then `.land k`. -/
theorem refresh_eq_run (k : Source) (r : FetchResult) (now : Instant) :
    m.refresh k r now = m.run [.begin k, .land k r now] := by
  cases hclosed : m.closed with
  | true =>
    rw [run_of_closed hclosed]
    simp [refresh, begin, hclosed]
  | false => simp [refresh, begin, hclosed, run, step]

/-- `refreshAll` is the run of `fetchAll`. -/
theorem refreshAll_eq_run (results : Source → FetchResult) (now : Instant) :
    m.refreshAll results now = m.run (fetchAll results now) := by
  unfold refreshAll fetchAll
  generalize Source.all = ks
  induction ks generalizing m with
  | nil => rfl
  | cons k ks ih =>
    rw [List.flatMap_cons, run_append, ← refresh_eq_run]
    exact ih (m.refresh k (results k) now)

end Interlock.Monitor

import Interlock.Proofs.Monitor.Step
import Interlock.Safety.Verdict

/-!
# Sources do not interfere

Four pipelines share one `Snapshot`. What an event does to the slot of a source depends on that slot
and on `closed` alone (`slot_step`), so a source sees of a run only the events that `Event.concerns`
it: `run es` and `run (es.filter (Event.concerns k))` leave the same slot of `k`
(`alike_run_filter`), and events of different sources can change places (`step_comm`). A fetch of
all sources is a fetch of each (`calls_eq_run`). `Verdict.evaluate` reads the banner from the slot
of `.executor` and the counts of items from the slot of `.intent`, so the same holds of them.
-/

namespace Interlock.Monitor

/-! ## Whom an event concerns -/

/-- The source of which an event begins or lands a fetch; `none` for `.close`. -/
def Event.source? : Event → Option Source
  | .begin k => some k
  | .land k _ _ => some k
  | .close => none

/-- Whether an event is one of `k`, or `.close`. -/
def Event.concerns (k : Source) (e : Event) : Bool := e.source?.all (· == k)

theorem Event.concerns_of_source? {e : Event} {k k' : Source} (h : e.source? = some k')
    (hk : k' ≠ k) : e.concerns k = false := by
  unfold concerns
  rw [h]
  exact beq_false_of_ne hk

/-- `onSlot k` is the identity for an event that does not concern `k`. -/
theorem Event.onSlot_of_not_concerns {e : Event} {k : Source} (h : e.concerns k = false)
    (s : Slot k.Record) : e.onSlot k s = s := by
  cases e with
  | close => rfl
  | begin k' => exact if_neg (ne_of_beq_false h)
  | land k' r now => exact if_neg (ne_of_beq_false h)

theorem Event.isClose_of_not_concerns {e : Event} {k : Source} (h : e.concerns k = false) :
    e.isClose = false := by
  cases e with
  | close => cases h
  | begin | land => rfl

/-! ## What a source sees of a monitor -/

/-- Two monitors with the same slot of `k` and the same `closed`. -/
structure Alike (k : Source) (m m' : Monitor) : Prop where
  closed : m.closed = m'.closed
  slot : m.snapshot.slot k = m'.snapshot.slot k

/-- `step` keeps monitors `Alike`. -/
theorem Alike.step {k : Source} {m m' : Monitor} (h : Alike k m m') (e : Event) :
    Alike k (m.step e) (m'.step e) where
  closed := by rw [closed_step, closed_step, h.closed]
  slot := by rw [slot_step, slot_step, h.closed, h.slot]

/-- An event that does not concern `k` leaves the monitor `Alike k`. -/
theorem alike_step_of_not_concerns (m : Monitor) {e : Event} {k : Source}
    (h : e.concerns k = false) : Alike k (m.step e) m where
  closed := by rw [closed_step, Event.isClose_of_not_concerns h, Bool.or_false]
  slot := by rw [slot_step, Event.onSlot_of_not_concerns h, ite_self]

/-- For `k`, a run is the run of the events that `concerns k` keeps. -/
theorem alike_run_filter {k : Source} {m m' : Monitor} (h : Alike k m m') (es : List Event) :
    Alike k (m.run es) (m'.run (es.filter (Event.concerns k))) := by
  induction es generalizing m m' with
  | nil => exact h
  | cons e es ih =>
    show Alike k ((m.step e).run es) _
    cases he : e.concerns k with
    | true =>
      rw [List.filter_cons_of_pos he]
      exact ih (h.step e)
    | false =>
      rw [List.filter_cons_of_neg (by simp [he])]
      have hstep := alike_step_of_not_concerns m he
      exact ih ⟨hstep.closed.trans h.closed, hstep.slot.trans h.slot⟩

/-! ## Events of different sources -/

/-- A monitor is its slots, its `version` and `closed`. -/
theorem ext_slot {m m' : Monitor} (closed : m.closed = m'.closed) (version : m.version = m'.version)
    (slot : ∀ k, m.snapshot.slot k = m'.snapshot.slot k) : m = m' := by
  obtain ⟨s, v, c⟩ := m
  obtain ⟨s', v', c'⟩ := m'
  cases closed
  cases version
  cases Snapshot.ext_slot slot
  rfl

/-- `step e` and `step e'` commute for events of different sources. -/
theorem step_comm (m : Monitor) {e e' : Event} {k k' : Source} (h : e.source? = some k)
    (h' : e'.source? = some k') (hk : k ≠ k') : (m.step e).step e' = (m.step e').step e := by
  have hopen : e.isClose = false := by
    cases e with
    | close => cases h
    | begin | land => rfl
  have hopen' : e'.isClose = false := by
    cases e' with
    | close => cases h'
    | begin | land => rfl
  refine ext_slot ?_ ?_ ?_
  · simp only [closed_step, hopen, hopen', Bool.or_false]
  · simp only [version_step, closed_step, hopen, hopen', Bool.or_false]
  · intro j
    by_cases hj : k = j
    · -- to the source of `e` the other event has not happened
      have hother : e'.concerns j = false := by
        rw [← hj]
        exact Event.concerns_of_source? h' (Ne.symm hk)
      have hleft := alike_step_of_not_concerns (m.step e) hother
      have hright := (alike_step_of_not_concerns m hother).step e
      exact hleft.slot.trans hright.slot.symm
    · -- to every other source `e` has not happened
      have hother : e.concerns j = false := Event.concerns_of_source? h hj
      have hleft := (alike_step_of_not_concerns m hother).step e'
      have hright := alike_step_of_not_concerns (m.step e') hother
      exact hleft.slot.trans hright.slot.symm

/-! ## Fetches of all sources -/

/-- What can be called on a monitor: an event, or `refreshAll`. -/
inductive Call
  | event (e : Event)
  | refreshAll (results : Source → FetchResult) (now : Instant)

/-- One call. -/
def call (m : Monitor) : Call → Monitor
  | .event e => m.step e
  | .refreshAll results now => m.refreshAll results now

/-- A sequence of calls. -/
def calls (m : Monitor) (cs : List Call) : Monitor := cs.foldl call m

/-- The events of a call; those of `refreshAll` are `fetchAll`. -/
def Call.events : Call → List Event
  | .event e => [e]
  | .refreshAll results now => fetchAll results now

/-- What a call is to `k`: an event that `concerns k`, or `refresh k`. -/
def Call.only (k : Source) : Call → List Event
  | .event e => if e.concerns k then [e] else []
  | .refreshAll results now => [.begin k, .land k (results k) now]

/-- `calls` is the `run` of all `Call.events`. -/
theorem calls_eq_run (m : Monitor) (cs : List Call) :
    m.calls cs = m.run (cs.flatMap Call.events) := by
  induction cs generalizing m with
  | nil => rfl
  | cons c cs ih =>
    have hcall : m.call c = m.run c.events := by
      cases c with
      | event e => rfl
      | refreshAll results now => exact refreshAll_eq_run m results now
    rw [List.flatMap_cons, run_append, ← hcall]
    exact ih (m.call c)

/-- Of the events of a call, `concerns k` keeps `Call.only k`. -/
theorem Call.filter_events (k : Source) (c : Call) :
    c.events.filter (Event.concerns k) = c.only k := by
  cases c with
  | event e => simp only [events, only, List.filter_cons, List.filter_nil]
  | refreshAll results now => cases k <;> rfl

/-- For `k`, `calls cs` is the run of all `Call.only k`. -/
theorem alike_calls (m : Monitor) (cs : List Call) (k : Source) :
    Alike k (m.calls cs) (m.run (cs.flatMap (Call.only k))) := by
  have hfilter : (cs.flatMap Call.events).filter (Event.concerns k) = cs.flatMap (Call.only k) := by
    simp only [List.filter_flatMap, Call.filter_events]
  rw [calls_eq_run, ← hfilter]
  exact alike_run_filter ⟨rfl, rfl⟩ _

/-- Calls with the same `Call.only k` leave the same slot of `k`. -/
theorem slot_calls_congr (m : Monitor) {cs cs' : List Call} {k : Source}
    (h : cs'.flatMap (Call.only k) = cs.flatMap (Call.only k)) :
    (m.calls cs').snapshot.slot k = (m.calls cs).snapshot.slot k := by
  rw [(alike_calls m cs' k).slot, h]
  exact (alike_calls m cs k).slot.symm

/-! ## The verdict -/

/-- The banner and the lock are read from the slot of `.executor`. -/
theorem banner_congr {s s' : Snapshot} (h : s.slot .executor = s'.slot .executor) :
    (Verdict.evaluate s).banner = (Verdict.evaluate s').banner ∧
      (Verdict.evaluate s).automationLocked = (Verdict.evaluate s').automationLocked := by
  have hexecutor : s.executor = s'.executor := h
  simp only [Verdict.evaluate, Snapshot.observedExecutorCode, hexecutor, and_self]

/-- The counts of items are read from the slot of `.intent`. -/
theorem counts_congr {s s' : Snapshot} (h : s.slot .intent = s'.slot .intent) :
    (Verdict.evaluate s).denyCount = (Verdict.evaluate s').denyCount ∧
      (Verdict.evaluate s).evidenceBadCount = (Verdict.evaluate s').evidenceBadCount := by
  have hintent : s.intent = s'.intent := h
  simp only [Verdict.evaluate, hintent, and_self]

/-- The slot of `k` after any calls is that of the events that concern `k`, events of different
sources commute, and the verdict depends on `Call.only .executor` for the banner and on `Call.only
.intent` for the counts. -/
theorem sources_isolated (m : Monitor) (cs : List Call) (k : Source) :
    let verdict (cs : List Call) := Verdict.evaluate (m.calls cs).snapshot
    (m.calls cs).snapshot.slot k = (m.run (cs.flatMap (Call.only k))).snapshot.slot k ∧
    (∀ cs', cs'.flatMap (Call.only k) = cs.flatMap (Call.only k) →
      (m.calls cs').snapshot.slot k = (m.calls cs).snapshot.slot k) ∧
    (∀ e k', e.source? = some k' → k' ≠ k →
      ((m.calls cs).step e).snapshot.slot k = (m.calls cs).snapshot.slot k) ∧
    (∀ e e' k', e.source? = some k → e'.source? = some k' → k ≠ k' →
      ((m.calls cs).step e).step e' = ((m.calls cs).step e').step e) ∧
    (∀ cs', cs'.flatMap (Call.only .executor) = cs.flatMap (Call.only .executor) →
      (verdict cs').banner = (verdict cs).banner ∧
      (verdict cs').automationLocked = (verdict cs).automationLocked) ∧
    ∀ cs', cs'.flatMap (Call.only .intent) = cs.flatMap (Call.only .intent) →
      (verdict cs').denyCount = (verdict cs).denyCount ∧
      (verdict cs').evidenceBadCount = (verdict cs).evidenceBadCount := by
  intro verdict
  refine ⟨(alike_calls m cs k).slot, ?_, ?_, ?_, ?_, ?_⟩
  · intro cs' h
    exact slot_calls_congr m h
  · intro e k' he hk
    exact (alike_step_of_not_concerns _ (Event.concerns_of_source? he hk)).slot
  · intro e e' k' he he' hk
    exact step_comm _ he he' hk
  · intro cs' h
    exact banner_congr (slot_calls_congr m h)
  · intro cs' h
    exact counts_congr (slot_calls_congr m h)

end Interlock.Monitor

import Interlock.Proofs.Loop.Timed
import Mathlib.Data.List.Perm.Basic

/-!
# No refresh is lost or made twice

A `tick` and a `wish?` each order one fetch of every source that they name. An order stands in the
`queue`, then in `ordered`, and becomes a request of `fetches`. `owed` counts all three, and while
the monitor is open only a tick and a wish add to it (`owed_step`). At a `Calm` moment nothing is on
the way, so `requestCount` is the ticks and the wishes so far (`requestCount_of_calm`).
-/

namespace Interlock

/-- Whether a wish names a source. -/
def RefreshRequest.names (k : Source) (r : RefreshRequest) : Bool := r.sources.contains k

/-- A wish orders each source at most once. -/
theorem RefreshRequest.count_sources (k : Source) (r : RefreshRequest) :
    r.sources.count k = if r.names k then 1 else 0 := by
  cases r with
  | all => cases k <;> rfl
  | source k' => cases k' <;> cases k <;> rfl

namespace Monitor.Loop

/-! ## The wishes of a history -/

/-- The `wish?` of the events of a history. -/
def wishes (l : Loop) : List (Nat × Event) → List RefreshRequest
  | [] => []
  | e :: es => (e.2.wish? l).toList ++ wishes (l.step e.1 e.2) es

theorem wishes_append (l : Loop) (es es' : List (Nat × Event)) :
    l.wishes (es ++ es') = l.wishes es ++ (l.steps es).wishes es' := by
  induction es generalizing l with
  | nil => rfl
  | cons e es ih =>
    rw [List.cons_append, wishes, wishes, ih, List.append_assoc]
    rfl

theorem wishes_concat (l : Loop) (es : List (Nat × Event)) (e : Nat × Event) :
    l.wishes (es ++ [e]) = l.wishes es ++ (e.2.wish? (l.steps es)).toList := by
  rw [wishes_append, wishes, wishes, List.append_nil]

/-- `handles = 0` is final. -/
theorem handles_step {l : Loop} (h : l.handles = 0) (now : Nat) (e : Event) :
    (l.step now e).handles = 0 := by
  cases e with
  | tick | receive | read | leave | land =>
    simp only [step]
    split <;> exact h
  | notice =>
    simp only [step]
    split
    · split
      · exact h
      split <;> exact h
    · exact h
  | begin i =>
    simp only [step]
    split
    · unfold fetch
      split <;> exact h
    · exact h
  | ask r =>
    simp only [step, ask, h, if_true]
  | tell value =>
    simp only [step, tell]
    split
    · exact h
    split <;> exact h
  | clone | drop => simp [step, h]
  | release | close => exact h

/-- Without handles there are no `wishes`. -/
theorem wishes_of_no_handle {l : Loop} (h : l.handles = 0) (es : List (Nat × Event)) :
    l.wishes es = [] := by
  induction es generalizing l with
  | nil => rfl
  | cons e es ih =>
    have hnone : e.2.wish? l = none := by
      cases e.2 with
      | ask r => simp [Event.wish?, ask, h]
      | _ => rfl
    rw [wishes, hnone, ih (handles_step h e.1 e.2)]
    rfl

/-! ## What is owed -/

/-- The requests of `k` in `fetches`, in `ordered` and in the `queue`. -/
def owed (k : Source) (l : Loop) : Nat :=
  l.requestCount k + l.ordered.count k + l.queue.countP (RefreshRequest.names k)

/-- While the monitor is open, `owed` grows by `ticks` and `wish?` alone. -/
theorem owed_step {now : Nat} {l : Loop} {e : Event} (h : (l.step now e).monitor.closed = false)
    (k : Source) : owed k (l.step now e) + l.ticks = owed k l + (l.step now e).ticks +
      (e.wish? l).toList.countP (RefreshRequest.names k) := by
  have hopen := open_of_step h
  have hmove := move_step now l e
  generalize l.step now e = l' at hmove ⊢
  cases hmove with
  | tick waiting =>
    have hall : Source.all.count k = 1 := by cases k <;> rfl
    simp only [owed, requestCount, List.count_append, hall, Event.wish?, Option.toList_none,
      List.countP_nil]
    omega
  | receive r rest waiting queue =>
    simp only [owed, requestCount, queue, List.count_append, RefreshRequest.count_sources,
      List.countP_cons, Event.wish?, Option.toList_none, List.countP_nil]
    omega
  | begin i k' ordered =>
    -- a fetch that was ordered becomes a request
    obtain ⟨hlt, hi⟩ := List.getElem?_eq_some_iff.1 ordered
    have hperm := (List.getElem_cons_eraseIdx_perm hlt).count_eq k
    rw [hi, List.count_cons] at hperm
    simp only [owed, requestCount, List.countP_append, List.countP_singleton, Event.wish?,
      Option.toList_none, List.countP_nil]
    omega
  | forgo i k' ordered closed =>
    rw [hopen] at closed
    cases closed
  | land i f r fetch underWay =>
    obtain ⟨hlt, hi⟩ := List.getElem?_eq_some_iff.1 fetch
    have hpos : f.source == k → 0 < l.fetches.countP (·.source == k) := fun hk =>
      List.countP_pos_iff.2 ⟨f, List.mem_of_getElem? fetch, hk⟩
    simp only [owed, requestCount, List.countP_set hlt, hi, Event.wish?, Option.toList_none,
      List.countP_nil]
    -- a request stays one when its fetch lands
    by_cases hk : (f.source == k) = true
    · have hbefore := hpos hk
      simp only [hk, if_true]
      omega
    · simp only [hk, Bool.false_eq_true, if_false]
      omega
  | asked r heard =>
    simp only [owed, requestCount, heard, List.countP_append, List.countP_singleton,
      Option.toList_some]
    omega
  | quiet _ _ wish ticks queue ordered fetches =>
    simp only [owed, requestCount, wish, ticks, queue, ordered, fetches, Option.toList_none,
      List.countP_nil]
    omega

/-- The run lemma of `owed_step`, from `start`. -/
theorem owed_steps {interval : Nat} {es : List (Nat × Event)}
    (h : ((start interval).steps es).monitor.closed = false) (k : Source) :
    owed k ((start interval).steps es) = ((start interval).steps es).ticks +
      ((start interval).wishes es).countP (RefreshRequest.names k) := by
  induction es using List.reverseRecOn with
  | nil => rfl
  | append_singleton es e ih =>
    rw [steps_concat] at h ⊢
    have hgrown := owed_step h k
    have hbefore := ih (open_of_step h)
    rw [wishes_concat, List.countP_append]
    omega

/-! ## By the clock -/

section Clock

variable {script : Script} {interval now : Nat} {es : List (Nat × Event)}

/-- `AtRest` with an open monitor, the loop waits. -/
theorem waiting_of_open (hpos : 0 < interval)
    (hopen : ((start interval).steps es).monitor.closed = false)
    (hrest : ((start interval).steps es).AtRest script interval now) :
    ((start interval).steps es).stage = .waiting := by
  have hstart : (start interval).stage = .waiting := by simp [start, enter, Nat.ne_of_gt hpos]
  refine hrest.waiting ?_
  cases hstage : ((start interval).steps es).stage with
  | ended =>
    have hclosed := closed_of_ended (by simp [hstart]) es hstage
    rw [hopen] at hclosed
    cases hclosed
  | absent => exact absurd hstage (stage_steps_ne_absent (by simp [hstart]) es)
  | waiting | noticed | leaving => simp [running, hstage]

/-- The loop is `AtRest`, or neither a tick nor an event of `es` falls on `now`. -/
def Calm (script : Script) (interval : Nat) (es : List (Nat × Event)) (now : Nat) : Prop :=
  ((start interval).steps es).AtRest script interval now ∨
    (∀ e ∈ es, e.1 ≠ now) ∧ ¬ interval ∣ now

/-- At a `Calm` moment `ordered` and `queue` are empty, and `ticks` is `now / interval + 1`. -/
theorem ticks_of_calm (hpos : 0 < interval) (h : Timed script interval es now)
    (hopen : ((start interval).steps es).monitor.closed = false)
    (hcalm : Calm script interval es now) :
    ((start interval).steps es).ordered = [] ∧ ((start interval).steps es).queue = [] ∧
      ((start interval).steps es).ticks = now / interval + 1 := by
  -- the second kind of calm moment comes right after a moment of rest, and no tick is in between
  have hrested : ∃ rested, Timed script interval es rested ∧
      ((start interval).steps es).AtRest script interval rested ∧
      rested / interval = now / interval := by
    rcases hcalm with hrest | ⟨hevents, htick⟩
    · exact ⟨now, h, hrest, rfl⟩
    cases h with
    | start => exact absurd (Nat.dvd_zero interval) htick
    | others timed e => exact absurd rfl (hevents (now, e) (by simp))
    | own timed e => exact absurd rfl (hevents (now, e) (by simp))
    | pass timed rest => exact ⟨_, timed, rest, (Nat.succ_div_of_not_dvd htick).symm⟩
  obtain ⟨rested, htimed, hrest, hquotient⟩ := hrested
  have hstage := waiting_of_open hpos hopen hrest
  have hrunning : ((start interval).steps es).running = true := by simp [running, hstage]
  refine ⟨hrest.ordered, hrest.queue hstage, ?_⟩
  rw [ticks_of_rest hpos (paced_timed hpos htimed) hrest hrunning, hquotient]

/-- At a `Calm` moment `requestCount k` is `now / interval + 1` and one for each of the `wishes`
that names `k`. -/
theorem requestCount_of_calm (hpos : 0 < interval) (h : Timed script interval es now)
    (hopen : ((start interval).steps es).monitor.closed = false)
    (hcalm : Calm script interval es now) (k : Source) :
    ((start interval).steps es).requestCount k = now / interval + 1 +
      ((start interval).wishes es).countP (RefreshRequest.names k) := by
  obtain ⟨hordered, hqueue, hticks⟩ := ticks_of_calm hpos h hopen hcalm
  have howed := owed_steps hopen k
  simpa only [owed, hordered, hqueue, hticks, List.count_nil, List.countP_nil,
    Nat.add_zero] using howed

/-- While the monitor is open, the requests of a source and those on the way are `ticks` and the
`wishes` that named it. At a `Calm` moment none is on the way and `ticks` is `now / interval + 1`.
-/
theorem requests_of_clock (hpos : 0 < interval) (h : Timed script interval es now)
    (hopen : ((start interval).steps es).monitor.closed = false) (k : Source) :
    let l := (start interval).steps es
    let asked := ((start interval).wishes es).countP (RefreshRequest.names k)
    l.requestCount k + l.ordered.count k + l.queue.countP (RefreshRequest.names k) =
      l.ticks + asked ∧
    (Calm script interval es now → l.requestCount k = now / interval + 1 + asked) ∧
    (l.handles = 0 → ∀ later now', Timed script interval (es ++ later) now' →
      (l.steps later).monitor.closed = false → Calm script interval (es ++ later) now' →
      (l.steps later).requestCount k = now' / interval + 1 + asked) := by
  intro l asked
  refine ⟨owed_steps hopen k, fun hcalm => requestCount_of_calm hpos h hopen hcalm k, ?_⟩
  intro hhandles later now' htimed hopen' hcalm
  have hlater : (start interval).steps (es ++ later) = l.steps later := steps_append _ es later
  have hwishes : (start interval).wishes (es ++ later) = (start interval).wishes es := by
    rw [wishes_append, wishes_of_no_handle hhandles, List.append_nil]
  rw [← hlater] at hopen' ⊢
  rw [requestCount_of_calm hpos htimed hopen' hcalm k, hwishes]

end Clock

/-- A wish for the executor at `0`, received after the first tick. -/
def wishAtStart : List (Nat × Event) :=
  [(0, .ask (.source .executor)), (0, .tick), (0, .begin 0), (0, .begin 0), (0, .begin 0),
    (0, .begin 0), (0, .receive), (0, .begin 0)]

/-- `wishAtStart` is `Timed` if a request takes 10. -/
theorem timed_wishAtStart :
    Timed (fun _ _ => (10, .unreachable "timeout")) 3 wishAtStart 1 := by
  have hstart : Timed (fun _ _ => (10, .unreachable "timeout")) 3 [] 0 := .start
  have hasked := hstart.others (.ask (.source .executor)) rfl
  have hticked := hasked.next rfl |>.next rfl |>.next rfl |>.next rfl |>.next rfl
  have hreceived := hticked.next rfl |>.next rfl
  exact hreceived.pass (atRest_of_next _ _ _ rfl)

/-- The executor is requested twice before it answers once. -/
theorem requests_of_clock_unanswered :
    ((start 3).steps wishAtStart).requestCount .executor = 1 / 3 + 1 + 1 ∧
      ((start 3).steps wishAtStart).requestCount .risk = 1 / 3 + 1 + 0 := by
  have hpositive : 0 < 3 := by decide
  have hopen : ((start 3).steps wishAtStart).monitor.closed = false := rfl
  have hcalm : Calm (fun _ _ => (10, .unreachable "timeout")) 3 wishAtStart 1 :=
    .inr ⟨by decide, by decide⟩
  have hrequests := requests_of_clock hpositive timed_wishAtStart hopen
  exact ⟨(hrequests .executor).2.1 hcalm, (hrequests .risk).2.1 hcalm⟩

end Monitor.Loop

end Interlock

import Interlock.Proofs.Monitor.Landings
import Interlock.Proofs.Session.Requests

/-!
# The fetches of a session

`monitorEvents` are the events that a step is to the monitor, and `monitor_run` says that the
monitor of a session is the monitor after its `history`. So what is known of `Monitor.run` is known
of the monitor of a session: each slot is `Slot.ofLandings` of what has landed (`slot_of_landed`),
and after `close` nothing is requested, published or shown any more (`closing_freezes`).
-/

namespace Interlock

/-- `press` changes neither the `snapshot` nor the `verdict` of the console. -/
theorem Console.press_shown (c : Console) (action : KeyAction) :
    (c.press action).2.snapshot = c.snapshot ∧ (c.press action).2.verdict = c.verdict := by
  unfold press
  split
  · obtain ⟨command, d, hkey, -⟩ := c.exists_dialogKey_eq action
    rw [hkey]
    exact ⟨rfl, rfl⟩
  · cases action with
    | openLock =>
      unfold cardKey
      cases c.verdict.lockRecommended <;> exact ⟨rfl, rfl⟩
    | _ => exact ⟨rfl, rfl⟩

namespace Session

/-! ## What a session does to its monitor -/

/-- The events of the monitor in one step. -/
def monitorEvents (s : Session) (now : Instant) : Event → List Monitor.Event
  | .refresh k r => [.begin k, .land k r now]
  | .refreshAll results => Monitor.fetchAll results now
  | .start k => [.begin k]
  | .settle id r =>
    match s.fetches[id]? with
    | some (some k) => [.land k r now]
    | _ => []
  | .close => [.close]
  | _ => []

theorem isClose_monitorEvents (s : Session) (now : Instant) {e : Event} (he : e ≠ .close) :
    ∀ m ∈ s.monitorEvents now e, m.isClose = false := by
  cases e with
  | close => exact absurd rfl he
  | refresh | start => simp [monitorEvents, Monitor.Event.isClose]
  | refreshAll results =>
    intro e hmem
    obtain ⟨k', -, hmem⟩ := List.mem_flatMap.1 hmem
    simp only [List.mem_cons, List.not_mem_nil, or_false] at hmem
    rcases hmem with rfl | rfl <;> rfl
  | settle id r =>
    simp only [monitorEvents]
    split <;> simp [Monitor.Event.isClose]
  | _ => simp [monitorEvents]

/-- The events of the monitor in a run. -/
def history (s : Session) : List (Instant × Event) → List Monitor.Event
  | [] => []
  | e :: es => s.monitorEvents e.1 e.2 ++ history (s.step e.1 e.2).2 es

theorem monitor_pressKey (action : KeyAction) (s : Session) :
    (s.pressKey action).2.monitor = s.monitor := by
  unfold pressKey
  cases s.console.press action with
  | mk command console => cases command <;> rfl

/-- A step runs its monitor through `monitorEvents`. -/
theorem monitor_step (s : Session) (now : Instant) (e : Event) :
    (s.step now e).2.monitor = s.monitor.run (s.monitorEvents now e) := by
  cases e with
  | refresh k r => exact s.monitor.refresh_eq_run k r now
  | refreshAll results => exact s.monitor.refreshAll_eq_run results now
  | start k =>
    show _ = (s.monitor.begin k).2
    cases hclosed : s.monitor.closed with
    | true => simp [step, Monitor.begin, hclosed]
    | false => simp [step, Monitor.begin, hclosed]
  | settle id r =>
    simp only [step, monitorEvents]
    rcases s.fetches[id]? with _ | _ | k <;> rfl
  | sync =>
    simp only [step]
    split <;> rfl
  | key action => exact monitor_pressKey action s
  | post id kill lock =>
    simp only [step]
    split <;> rfl
  | deliver id =>
    simp only [step]
    split <;> rfl
  | send kill lock =>
    simp only [step]
    split <;> rfl
  | press | begin | finish | confirm | close | request | dropRequests => rfl

/-- A run runs its monitor through `history`. -/
theorem monitor_run (s : Session) (es : List (Instant × Event)) :
    (s.run es).monitor = s.monitor.run (s.history es) := by
  induction es generalizing s with
  | nil => rfl
  | cons e es ih =>
    show ((s.step e.1 e.2).2.run es).monitor = _
    rw [ih, monitor_step, history, Monitor.run_append]

/-! ## What the slots show -/

/-- The results of `k` that have landed in a session before `close`, in their order. -/
def landed (k : Source) (es : List (Instant × Event)) : List (FetchResult × Instant) :=
  Monitor.landings k (fresh.history es)

/-- `atRest`, a slot is `Slot.ofLandings` of `landed k es`. -/
theorem atRest_slot (es : List (Instant × Event)) (k : Source) :
    ((run fresh es).monitor.snapshot.slot k).atRest = Slot.ofLandings k (landed k es) := by
  rw [monitor_run]
  exact Monitor.atRest_run_fresh _ k

/-- But for the fetches under way, a slot is `Slot.ofLandings` of `landed k es`: the last result
with its time and outcome, the record of its `usablePayload`, and the last code of an answer. A
`start` changes none of these. -/
theorem slot_of_landed (es : List (Instant × Event)) (k : Source) :
    let slot := (run fresh es).monitor.snapshot.slot k
    let succeeded (r : FetchResult) :=
      ∃ c p error, r = .received c (some p) error ∧ 200 ≤ c ∧ c < 300
    slot.atRest = Slot.ofLandings k (landed k es) ∧
    (landed k es = [] → slot.result = none ∧ slot.outcome = none ∧ slot.canonical = k.unknown ∧
      slot.lastHttpCode = none ∧ slot.updatedAt = none) ∧
    (∀ before r now, landed k es = before ++ [(r, now)] →
      slot.result = some r ∧ slot.updatedAt = some now ∧
      slot.canonical = k.read r.usablePayload ∧
      (¬ succeeded r → slot.canonical = k.unknown) ∧
      (slot.outcome = some .success ↔ succeeded r) ∧
      (slot.outcome = some .error ↔ ¬ succeeded r) ∧
      (slot.healthy = true ↔ r.usablePayload.isSome = true)) ∧
    slot.lastHttpCode = ((landed k es).filterMap fun x => x.1.status).getLast? ∧
    ∀ now k', (((run fresh es).step now (.start k')).2.monitor.snapshot.slot k).atRest =
      slot.atRest := by
  intro slot succeeded
  have hslot : slot.atRest = Slot.ofLandings k (landed k es) := atRest_slot es k
  -- at rest a slot differs from itself only in the phase and in the count of fetches
  have hresult : slot.result = (Slot.ofLandings k (landed k es)).result := by
    rw [← hslot]
    rfl
  have houtcome : slot.outcome = (Slot.ofLandings k (landed k es)).outcome := by
    rw [← hslot]
    rfl
  have hcanonical : slot.canonical = (Slot.ofLandings k (landed k es)).canonical := by
    rw [← hslot]
    rfl
  have hcode : slot.lastHttpCode = (Slot.ofLandings k (landed k es)).lastHttpCode := by
    rw [← hslot]
    rfl
  have hupdated : slot.updatedAt = (Slot.ofLandings k (landed k es)).updatedAt := by
    rw [← hslot]
    rfl
  refine ⟨hslot, ?_, ?_, hcode, ?_⟩
  · intro hnone
    rw [hresult, houtcome, hcanonical, hcode, hupdated, hnone]
    exact ⟨rfl, rfl, rfl, rfl, rfl⟩
  · intro before r now hlast
    have hgetLast : (landed k es).getLast? = some (r, now) := by rw [hlast, List.getLast?_concat]
    simp only [Slot.ofLandings, hgetLast, Option.map_some, Option.bind_some]
      at hresult houtcome hcanonical hupdated
    have hsucceeded : r.usablePayload.isSome = true ↔ succeeded r :=
      FetchResult.isSome_usablePayload
    refine ⟨hresult, hupdated, hcanonical, ?_, ?_, ?_, ?_⟩
    · intro hfailed
      have hnone : r.usablePayload = none := by
        rw [← Option.not_isSome_iff_eq_none, hsucceeded]
        exact hfailed
      rw [hcanonical, hnone]
      rfl
    · rw [houtcome, Option.some_inj, Slot.outcomeOf_eq_success, hsucceeded]
    · rw [houtcome, Option.some_inj, Slot.outcomeOf_eq_error, hsucceeded]
    · rw [Slot.healthy, houtcome, beq_iff_eq, Option.some_inj, Slot.outcomeOf_eq_success]
  · intro now k'
    rw [monitor_step]
    exact Monitor.atRest_step_begin _ k k'

/-! ## After the closing -/

/-- The sources whose status a run requests, in order. -/
def statusRequests (s : Session) (es : List (Instant × Event)) : List Source :=
  s.monitor.requested (s.history es)

/-- A closed monitor stays as it is. -/
theorem monitor_run_of_closed {s : Session} (h : s.monitor.closed = true)
    (es : List (Instant × Event)) : (s.run es).monitor = s.monitor := by
  rw [monitor_run, Monitor.run_of_closed h]

/-- No step but `sync` changes `seen` and what the console shows. -/
theorem shown_step_of_ne_sync (s : Session) (now : Instant) {e : Event} (he : e ≠ .sync) :
    (s.step now e).2.seen = s.seen ∧
      (s.step now e).2.console.snapshot = s.console.snapshot ∧
      (s.step now e).2.console.verdict = s.console.verdict := by
  cases e with
  | sync => exact absurd rfl he
  | key action =>
    have hshown := s.console.press_shown action
    simp only [step, pressKey]
    cases hpress : s.console.press action with
    | mk command console =>
      rw [hpress] at hshown
      cases command <;> exact ⟨rfl, hshown⟩
  | press action => exact ⟨rfl, s.console.press_shown action⟩
  | start k =>
    simp only [step]
    split <;> exact ⟨rfl, rfl, rfl⟩
  | settle id r =>
    simp only [step]
    split <;> exact ⟨rfl, rfl, rfl⟩
  | post id kill lock =>
    simp only [step]
    split <;> exact ⟨rfl, rfl, rfl⟩
  | deliver id =>
    simp only [step]
    split <;> exact ⟨rfl, rfl, rfl⟩
  | send kill lock =>
    simp only [step]
    split <;> exact ⟨rfl, rfl, rfl⟩
  | refresh | refreshAll | close | begin | finish | confirm | request | dropRequests =>
    exact ⟨rfl, rfl, rfl⟩

/-- If `seen = version`, no step changes `seen` and what the console shows. -/
theorem shown_step {s : Session} (h : s.seen = s.monitor.version) (now : Instant) (e : Event) :
    (s.step now e).2.seen = s.seen ∧
      (s.step now e).2.console.snapshot = s.console.snapshot ∧
      (s.step now e).2.console.verdict = s.console.verdict := by
  by_cases he : e = .sync
  · subst he
    simp only [step, h, if_true]
    exact ⟨trivial, trivial, trivial⟩
  · exact s.shown_step_of_ne_sync now he

/-- The run lemma of `shown_step`, for a closed monitor. -/
theorem shown_run_of_closed {s : Session} (hclosed : s.monitor.closed = true)
    (h : s.seen = s.monitor.version) (es : List (Instant × Event)) :
    (s.run es).seen = s.seen ∧ (s.run es).console.snapshot = s.console.snapshot ∧
      (s.run es).console.verdict = s.console.verdict := by
  induction es using List.reverseRecOn with
  | nil => exact ⟨rfl, rfl, rfl⟩
  | append_singleton es e ih =>
    obtain ⟨hseen, hsnapshot, hverdict⟩ := ih
    have hlatest : (s.run es).seen = (s.run es).monitor.version := by
      rw [hseen, monitor_run_of_closed hclosed, h]
    obtain ⟨hseen', hsnapshot', hverdict'⟩ := shown_step hlatest e.1 e.2
    rw [run_concat]
    exact ⟨hseen'.trans hseen, hsnapshot'.trans hsnapshot, hverdict'.trans hverdict⟩

/-- After `close`, whatever is under way and whatever happens: `snapshot`, `version`, verdict and
gate stay as they are, no status is requested, and a console that has seen the last version shows
the same. -/
theorem closing_freezes (es es' : List (Instant × Event)) (now : Instant) :
    let s := run fresh es
    let closed := (s.step now .close).2
    let s' := closed.run es'
    s'.monitor.closed = true ∧
    s'.monitor.snapshot = s.monitor.snapshot ∧
    Verdict.evaluate s'.monitor.snapshot = Verdict.evaluate s.monitor.snapshot ∧
    s'.gateLocked = s.gateLocked ∧
    (∀ seen, seen = s'.monitor.version ↔ seen = s.monitor.version) ∧
    (s.seen = s.monitor.version →
      s'.console.snapshot = s.console.snapshot ∧ s'.console.verdict = s.console.verdict ∧
      ∀ t, s'.step t .sync = (.just (.synced false), s')) ∧
    closed.statusRequests es' = [] ∧
    (∀ k, s'.monitor.begin k = (false, s'.monitor)) ∧
    ∀ t k, s'.step t (.start k) = (.just (.started none), s') := by
  intro s closed s'
  have hmonitor : s'.monitor = s.monitor.close := monitor_run_of_closed rfl es'
  have hclosed : s'.monitor.closed = true := by
    rw [hmonitor]
    rfl
  have hsnapshot : s'.monitor.snapshot = s.monitor.snapshot := by
    rw [hmonitor]
    rfl
  have hversion : s'.monitor.version = s.monitor.version := by
    rw [hmonitor]
    rfl
  have hbegin : ∀ k, s'.monitor.begin k = (false, s'.monitor) := by
    intro k
    unfold Monitor.begin
    rw [if_pos hclosed]
  refine ⟨hclosed, hsnapshot, ?_, ?_, ?_, ?_, ?_, hbegin, ?_⟩
  · rw [hsnapshot]
  · unfold gateLocked
    rw [hsnapshot]
  · intro seen
    rw [hversion]
  · intro hseen
    obtain ⟨hseen', hshown⟩ := shown_run_of_closed (s := closed) rfl hseen es'
    refine ⟨hshown.1, hshown.2, ?_⟩
    intro t
    have hlatest : s'.seen = s'.monitor.version := by
      rw [hversion, ← hseen]
      exact hseen'
    simp only [step, if_pos hlatest]
  · exact Monitor.requested_of_closed rfl _
  · intro t k
    simp only [step, hbegin]

end Session

end Interlock

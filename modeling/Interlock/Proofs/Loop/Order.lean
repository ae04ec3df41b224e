import Interlock.Proofs.Loop.Requests
import Interlock.Proofs.Monitor.Landings
import Interlock.Settings.Basic

/-!
# No fetch overtakes another

Settings without `problems` have `requestTimeoutMs < intervalMs`. So while `wishes` is empty, the
n-th fetch of a source begins at the n-th tick (`Scheduled`) and has landed before the next one
begins (`landed_of_later`), and its slot shows the latest result (`Published`).
-/

namespace Interlock

theorem Settings.timeout_lt_interval [Url.Idna] {s : Settings} (h : s.problems = []) :
    s.requestTimeoutMs < s.intervalMs := by
  obtain ⟨-, htimeout⟩ := List.append_eq_nil_iff.1 h
  unfold timeoutProblems at htimeout
  split at htimeout
  · cases htimeout
  split at htimeout
  · cases htimeout
  · next hlt => exact Nat.lt_of_not_le hlt

namespace Monitor.Loop

/-- The `fetches` of a source, in the order in which they began. -/
def fetchesOf (k : Source) (l : Loop) : List Fetch := l.fetches.filter (·.source == k)

theorem length_fetchesOf (k : Source) (l : Loop) : (l.fetchesOf k).length = l.requestCount k :=
  List.countP_eq_length_filter.symm

/-- A `land` replaces one entry of `fetchesOf` its source, and none of another source. -/
theorem fetchesOf_land {l : Loop} {i : Nat} {f : Fetch} (h : l.fetches[i]? = some f) (k : Source) :
    ∃ before after, l.fetchesOf k = before ++ (if f.source = k then [f] else []) ++ after ∧
      ∀ r (l' : Loop), l'.fetches = l.fetches.set i { f with result := some r } → l'.fetchesOf k =
        before ++ (if f.source = k then [{ f with result := some r }] else []) ++ after := by
  obtain ⟨hlt, hi⟩ := List.getElem?_eq_some_iff.1 h
  refine ⟨(l.fetches.take i).filter (·.source == k),
    (l.fetches.drop (i + 1)).filter (·.source == k), ?_, ?_⟩
  · have hsplit : l.fetches = l.fetches.take i ++ f :: l.fetches.drop (i + 1) := by
      rw [← hi, List.getElem_cons_drop, List.take_append_drop]
    have hfilter := congrArg (List.filter (·.source == k)) hsplit
    rw [List.filter_append] at hfilter
    refine hfilter.trans ?_
    by_cases hk : f.source = k <;> simp [hk]
  · intro r l' hl'
    rw [fetchesOf, hl', List.set_eq_take_append_cons_drop, if_pos hlt, List.filter_append]
    by_cases hk : f.source = k <;> simp [hk]

/-! ## Numbers -/

/-- The `number` of the n-th entry of `fetchesOf k` is `n`. -/
def Numbered (l : Loop) : Prop :=
  ∀ k, (l.fetchesOf k).map Fetch.number = List.range (l.requestCount k)

theorem Numbered.step {l : Loop} (h : l.Numbered) (now : Nat) (e : Event) :
    (l.step now e).Numbered := by
  intro k
  rw [← length_fetchesOf]
  have hmove := move_step now l e
  have hbefore := h k
  rw [← length_fetchesOf] at hbefore
  generalize l.step now e = l' at hmove ⊢
  cases hmove with
  | tick | receive | forgo | asked => exact hbefore
  | begin i k' =>
    simp only [fetchesOf, List.filter_append, List.map_append, List.length_append]
    cases hk : k' == k with
    | true =>
      obtain rfl := eq_of_beq hk
      simp only [List.filter_cons, beq_self_eq_true, if_true, List.filter_nil, List.map_cons,
        List.map_nil, List.length_cons, List.length_nil, Nat.zero_add, List.range_succ,
        ← length_fetchesOf]
      exact congrArg (· ++ _) hbefore
    | false =>
      simp only [List.filter_cons, hk, Bool.false_eq_true, if_false, List.filter_nil, List.map_nil,
        List.length_nil, List.append_nil, Nat.add_zero]
      exact hbefore
  | land i f r fetch =>
    obtain ⟨before, after, hfetches, hset⟩ := fetchesOf_land fetch k
    rw [hfetches] at hbefore
    rw [hset r _ rfl]
    by_cases hk : f.source = k <;> simpa [hk] using hbefore
  | quiet _ _ _ _ _ _ fetches =>
    simp only [fetchesOf, fetches]
    exact hbefore

/-- `start interval` is `Numbered` after every history. -/
theorem numbered_steps (interval : Nat) (es : List (Nat × Event)) :
    ((start interval).steps es).Numbered := by
  induction es using List.reverseRecOn with
  | nil => exact fun k => rfl
  | append_singleton es e ih =>
    rw [steps_concat]
    exact ih.step e.1 e.2

/-- `number` grows along `fetchesOf k`. -/
theorem Numbered.pairwise {l : Loop} (h : l.Numbered) (k : Source) :
    (l.fetchesOf k).Pairwise fun f g => f.number < g.number := by
  have hrange : ((l.fetchesOf k).map Fetch.number).Pairwise (· < ·) := by
    rw [h k]
    exact List.pairwise_lt_range
  exact List.pairwise_map.1 hrange

/-! ## The schedule -/

/-- What is `ordered` was ordered by a tick at `now`, each source once, and a fetch began at the
tick of its `number`. -/
structure Scheduled (interval now : Nat) (l : Loop) : Prop where
  ordered : l.ordered ≠ [] → l.ticks * interval = now + interval
  once : ∀ k, l.ordered.count k ≤ 1
  begun : ∀ f ∈ l.fetches, f.begun = f.number * interval

theorem queue_of_no_wish {interval : Nat} {es : List (Nat × Event)}
    (h : (start interval).wishes es = []) : ((start interval).steps es).queue = [] := by
  induction es using List.reverseRecOn with
  | nil => rfl
  | append_singleton es e ih =>
    rw [wishes_concat, List.append_eq_nil_iff] at h
    have hbefore := ih h.1
    have hnone : e.2.wish? ((start interval).steps es) = none := by simpa using h.2
    rw [steps_concat]
    obtain ⟨now, e⟩ := e
    have hmove := move_step now ((start interval).steps es) e
    generalize ((start interval).steps es).step now e = l' at hmove ⊢
    cases hmove with
    | tick | begin | forgo | land => exact hbefore
    | receive r rest waiting queue =>
      rw [hbefore] at queue
      cases queue
    | asked r heard =>
      rw [heard] at hnone
      cases hnone
    | quiet _ _ _ _ queue => rw [queue, hbefore]

/-- Without `wishes`, a request of `k` was made or is `ordered` for every tick. -/
theorem requestCount_add_ordered {interval : Nat} {es : List (Nat × Event)}
    (hwishes : (start interval).wishes es = [])
    (hopen : ((start interval).steps es).monitor.closed = false) (k : Source) :
    ((start interval).steps es).requestCount k + ((start interval).steps es).ordered.count k =
      ((start interval).steps es).ticks := by
  have howed := owed_steps hopen k
  simpa only [owed, queue_of_no_wish hwishes, hwishes, List.countP_nil, Nat.add_zero] using howed

/-- `Scheduled` is kept by every event but a `tick` that is not `Ready`. -/
theorem Scheduled.step {script : Script} {interval now : Nat} {l : Loop}
    (h : Scheduled interval now l) (hpos : 0 < interval) (hpaced : Paced interval now l)
    (hqueue : l.queue = []) (htally : ∀ k, l.requestCount k + l.ordered.count k = l.ticks)
    {e : Event} (he : e = .tick → l.Ready script interval now e) :
    Scheduled interval now (l.step now e) := by
  have hmove := move_step now l e
  generalize l.step now e = l' at hmove ⊢
  cases hmove with
  | tick waiting =>
    obtain ⟨-, hdue⟩ := he rfl
    simp only [tickDue, Bool.and_eq_true, decide_eq_true_eq] at hdue
    have hnow : l.ticks * interval = now :=
      Nat.le_antisymm hdue.2 (hpaced.punctual (by simp [running, waiting]))
    have hnone : l.ordered = [] := by
      -- what is ordered is from a tick at this moment, and after that no further one is due
      by_contra hsome
      have hlate := h.ordered hsome
      omega
    refine ⟨fun _ => ?_, fun k => ?_, h.begun⟩
    · show (l.ticks + 1) * interval = now + interval
      rw [Nat.succ_mul, hnow]
    · show (l.ordered ++ Source.all).count k ≤ 1
      rw [hnone]
      cases k <;> decide
  | receive r rest waiting queue =>
    rw [hqueue] at queue
    cases queue
  | begin i k ordered =>
    have hmem : k ∈ l.ordered := List.mem_of_getElem? ordered
    have hnow : l.ticks * interval = now + interval := h.ordered (List.ne_nil_of_mem hmem)
    have hcount : l.ordered.count k = 1 :=
      Nat.le_antisymm (h.once k) (List.count_pos_iff.2 hmem)
    refine ⟨fun _ => hnow, fun k' => ?_, ?_⟩
    · exact Nat.le_trans ((List.eraseIdx_sublist l.ordered i).count_le k') (h.once k')
    · intro f hf
      rcases List.mem_append.1 hf with hf | hf
      · exact h.begun f hf
      · rw [List.mem_singleton.1 hf]
        -- all ticks but this one have been requests of the source
        have hticks : l.ticks = l.requestCount k + 1 := by rw [← htally k, hcount]
        rw [hticks, Nat.succ_mul] at hnow
        exact (Nat.add_right_cancel hnow).symm
  | forgo i k ordered =>
    have hmem : k ∈ l.ordered := List.mem_of_getElem? ordered
    refine ⟨fun _ => h.ordered (List.ne_nil_of_mem hmem), fun k' => ?_, h.begun⟩
    exact Nat.le_trans ((List.eraseIdx_sublist l.ordered i).count_le k') (h.once k')
  | land i f r fetch =>
    refine ⟨h.ordered, h.once, ?_⟩
    intro g hg
    rcases List.mem_or_eq_of_mem_set hg with hg | rfl
    · exact h.begun g hg
    · exact h.begun f (List.mem_of_getElem? fetch)
  | asked => exact ⟨h.ordered, h.once, h.begun⟩
  | quiet _ _ _ ticks _ ordered fetches =>
    refine ⟨?_, ?_, ?_⟩
    · rw [ordered, ticks]
      exact h.ordered
    · rw [ordered]
      exact h.once
    · rw [fetches]
      exact h.begun

section Clock

variable {script : Script} {interval now : Nat} {es : List (Nat × Event)}

/-- A `Timed` history without `wishes` is `Scheduled` while the monitor is open. -/
theorem scheduled_timed (hpos : 0 < interval) (h : Timed script interval es now) :
    (start interval).wishes es = [] → ((start interval).steps es).monitor.closed = false →
      Scheduled interval now ((start interval).steps es) := by
  induction h using Timed.by_events with
  | start =>
    intro _ _
    exact ⟨fun hordered => absurd rfl hordered, by simp [steps, start, enter],
      by simp [steps, start, enter]⟩
  | event es now timed e tick timed' ih =>
    intro hwishes hopen
    rw [wishes_concat, List.append_eq_nil_iff] at hwishes
    rw [steps_concat] at hopen ⊢
    have hbefore := open_of_step hopen
    exact (ih hwishes.1 hbefore).step hpos (paced_timed hpos timed) (queue_of_no_wish hwishes.1)
      (requestCount_add_ordered hwishes.1 hbefore) tick
  | pass es now timed rest ih =>
    intro hwishes hopen
    have hbefore := ih hwishes hopen
    exact ⟨fun hordered => absurd rest.ordered hordered, hbefore.once, hbefore.begun⟩

/-- If `script` answers in less than `interval`, all of `fetchesOf k` but the last have landed. -/
theorem landed_of_later {l : Loop} (hfast : ∀ k n, (script k n).1 < interval)
    (hscheduled : Scheduled interval now l) (htime : OnTime script now l) (hnumbered : l.Numbered)
    (k : Source) : (l.fetchesOf k).Pairwise fun f _ => f.underWay = false := by
  refine (hnumbered.pairwise k).imp_of_mem ?_
  intro f g hf hg hlt
  have hmem {f : Fetch} (hf : f ∈ l.fetchesOf k) : f ∈ l.fetches := (List.mem_filter.1 hf).1
  by_contra hunderWay
  have hdue : now ≤ f.due script := htime.le_due f (hmem hf) (by simpa using hunderWay)
  have hbegun : g.begun ≤ now := htime.begun_le g (hmem hg)
  have hnext : f.due script < g.begun :=
    calc f.due script = f.number * interval + (script f.source f.number).1 := by
          rw [Fetch.due, hscheduled.begun f (hmem hf)]
      _ < f.number * interval + interval := Nat.add_lt_add_left (hfast _ _) _
      _ = (f.number + 1) * interval := (Nat.succ_mul _ _).symm
      _ ≤ g.number * interval := Nat.mul_le_mul_right _ hlt
      _ = g.begun := (hscheduled.begun g (hmem hg)).symm
  omega

end Clock

/-! ## The published results -/

/-- The slot of `k` shows the last result of `fetchesOf k`. -/
def Published (l : Loop) : Prop :=
  ∀ k, (l.monitor.snapshot.slot k).result = ((l.fetchesOf k).filterMap Fetch.result).getLast?

/-- The `result` of a slot after an event to an open monitor is that of `Event.landed`, if any. -/
theorem result_step_of_open {m : Monitor} (h : m.closed = false) (e : Monitor.Event) (k : Source) :
    ((m.step e).snapshot.slot k).result =
      ((e.landed k).map Prod.fst).or (m.snapshot.slot k).result := by
  rw [slot_step, h, if_neg Bool.false_ne_true]
  cases e with
  | begin k' =>
    simp only [Monitor.Event.onSlot, Monitor.Event.landed]
    split <;> rfl
  | land k' r now =>
    simp only [Monitor.Event.onSlot, Monitor.Event.landed]
    split <;> rfl
  | close => rfl

/-- `Published` is kept while the monitor is open and all of `fetchesOf k` but the last have landed.
-/
theorem Published.step {now : Nat} {l : Loop} {e : Event} (h : l.Published)
    (hlanded : ∀ k, (l.fetchesOf k).Pairwise fun f _ => f.underWay = false)
    (hopen : (l.step now e).monitor.closed = false) : (l.step now e).Published := by
  intro k
  have hbefore := h k
  have hopened := open_of_step hopen
  have hmove := move_step now l e
  generalize l.step now e = l' at hmove ⊢
  cases hmove with
  | tick | receive | forgo | asked => exact hbefore
  | begin i k' =>
    have hslot := result_step_of_open hopened (.begin k') k
    refine hslot.trans (hbefore.trans ?_)
    simp only [fetchesOf, List.filter_append, List.filterMap_append]
    cases hk : k' == k <;> simp [hk]
  | land i f r fetch underWay =>
    obtain ⟨before, after, hfetches, hset⟩ := fetchesOf_land fetch k
    have hslot := result_step_of_open hopened (.land f.source r ⟨now⟩) k
    refine hslot.trans ?_
    rw [hbefore, hfetches, hset r _ rfl]
    by_cases hk : f.source = k
    · -- the fetch is under way, so it is the latest of its source
      have hlatest : after = [] := by
        have hpairwise := hlanded k
        rw [hfetches, if_pos hk, List.append_assoc, List.pairwise_append] at hpairwise
        obtain ⟨-, hcons, -⟩ := hpairwise
        refine List.eq_nil_iff_forall_not_mem.2 fun g hg => ?_
        have hdone := (List.pairwise_cons.1 hcons).1 g hg
        rw [underWay] at hdone
        cases hdone
      simp [Monitor.Event.landed, hk, hlatest, List.filterMap_append]
    · simp [Monitor.Event.landed, hk]
  | quiet _ _ _ _ _ _ fetches monitor =>
    have hsnapshot : l'.monitor.snapshot = l.monitor.snapshot := by
      rcases monitor with monitor | monitor <;> rw [monitor]
      rfl
    simp only [fetchesOf, hsnapshot, fetches]
    exact hbefore

section Clock

variable {script : Script} {interval now : Nat} {es : List (Nat × Event)}

/-- `landed_of_later` for a `Timed` history without `wishes`. -/
theorem landed_timed (hfast : ∀ k n, (script k n).1 < interval)
    (h : Timed script interval es now) (hwishes : (start interval).wishes es = [])
    (hopen : ((start interval).steps es).monitor.closed = false) (k : Source) :
    (((start interval).steps es).fetchesOf k).Pairwise fun f _ => f.underWay = false := by
  have hpos : 0 < interval := Nat.zero_lt_of_lt (hfast k 0)
  exact landed_of_later hfast (scheduled_timed hpos h hwishes hopen) (onTime_timed h)
    (numbered_steps interval es) k

/-- `Published` for a `Timed` history without `wishes`. -/
theorem published_timed (hfast : ∀ k n, (script k n).1 < interval)
    (h : Timed script interval es now) :
    (start interval).wishes es = [] → ((start interval).steps es).monitor.closed = false →
      ((start interval).steps es).Published := by
  induction h using Timed.by_events with
  | start =>
    intro _ _ k
    cases k <;> rfl
  | event es now timed e tick timed' ih =>
    intro hwishes hopen
    rw [wishes_concat, List.append_eq_nil_iff] at hwishes
    rw [steps_concat] at hopen ⊢
    have hbefore := open_of_step hopen
    exact (ih hwishes.1 hbefore).step (landed_timed hfast timed hwishes.1 hbefore) hopen
  | pass es now timed rest ih => exact ih

theorem countP_underWay_le_one {fetches : List Fetch}
    (h : fetches.Pairwise fun f _ => f.underWay = false) :
    fetches.countP Fetch.underWay ≤ 1 := by
  rcases List.eq_nil_or_concat' fetches with rfl | ⟨init, last, rfl⟩
  · simp
  · have hinit : init.countP Fetch.underWay = 0 := by
      obtain ⟨-, -, hlanded⟩ := List.pairwise_append.1 h
      refine List.countP_eq_zero.2 fun f hf => ?_
      simp [hlanded f hf last (List.mem_singleton_self last)]
    rw [List.countP_append, hinit, Nat.zero_add]
    exact List.countP_le_length

/-- In a `Timed` history within `requestTimeoutMs` and without `wishes`, with `problems = []`: each
source has at most one fetch under way, fetches land in the order in which they begin, and the slot
is `Published`. -/
theorem no_fetch_overtakes [Url.Idna] {s : Settings} (hvalid : s.problems = [])
    {unit : Nat} (hunit : 0 < unit) (hanswered : ∀ k n, (script k n).1 ≤ s.requestTimeoutMs * unit)
    (h : Timed script (s.intervalMs * unit) es now)
    (hwishes : (start (s.intervalMs * unit)).wishes es = [])
    (hopen : ((start (s.intervalMs * unit)).steps es).monitor.closed = false) (k : Source) :
    let l := (start (s.intervalMs * unit)).steps es
    (l.fetchesOf k).countP Fetch.underWay ≤ 1 ∧
    ((l.fetchesOf k).Pairwise fun f g => f.number < g.number ∧ f.underWay = false) ∧
    (l.monitor.snapshot.slot k).result = ((l.fetchesOf k).filterMap Fetch.result).getLast? := by
  intro l
  have hfast : ∀ k n, (script k n).1 < s.intervalMs * unit := fun k n =>
    Nat.lt_of_le_of_lt (hanswered k n)
      (Nat.mul_lt_mul_of_pos_right (Settings.timeout_lt_interval hvalid) hunit)
  have hlanded := landed_timed hfast h hwishes hopen
  refine ⟨countP_underWay_le_one (hlanded k), ?_, published_timed hfast h hwishes hopen k⟩
  exact ((numbered_steps _ es).pairwise k).and (hlanded k)

end Clock

/-- Settings with `requestTimeoutMs` half of `intervalMs`. -/
def briskSettings : Settings := { Settings.default with requestTimeoutMs := 1, intervalMs := 2 }

/-- Every request takes `1`, and is answered with the code `200 + n`. -/
def lateScript : Script := fun _ n => (1, .answer (200 + n) none)

/-- The first two ticks, until the second requests have begun. -/
def twoTicks : List (Nat × Event) :=
  [(0, .tick), (0, .begin 0), (0, .begin 0), (0, .begin 0), (0, .begin 0),
    (1, .land 0 (.answer 200 none)), (1, .land 1 (.answer 200 none)),
    (1, .land 2 (.answer 200 none)), (1, .land 3 (.answer 200 none)),
    (2, .tick), (2, .begin 0), (2, .begin 0), (2, .begin 0), (2, .begin 0)]

theorem timed_twoTicks : Timed lateScript (briskSettings.intervalMs * 1) twoTicks 2 := by
  have hstart : Timed lateScript (briskSettings.intervalMs * 1) [] 0 := .start
  have hbegun := hstart.next rfl |>.next rfl |>.next rfl |>.next rfl |>.next rfl
  have hlanded := hbegun.pass (atRest_of_next _ _ _ rfl)
    |>.next rfl |>.next rfl |>.next rfl |>.next rfl
  exact hlanded.pass (atRest_of_next _ _ _ rfl)
    |>.next rfl |>.next rfl |>.next rfl |>.next rfl |>.next rfl

/-- The executor's second request is under way, and its first result is shown. -/
theorem no_fetch_overtakes_second_tick :
    let l := (start (briskSettings.intervalMs * 1)).steps twoTicks
    l.requestCount .executor = 2 ∧ (l.fetchesOf .executor).countP Fetch.underWay ≤ 1 ∧
      (l.monitor.snapshot.slot .executor).result = some (.answer 200 none) := by
  intro l
  have hvalid : briskSettings.problems = [] := by decide +kernel
  have hunit : 0 < 1 := by decide
  have hanswered : ∀ k n, (lateScript k n).1 ≤ briskSettings.requestTimeoutMs * 1 :=
    fun _ _ => Nat.le_refl 1
  have hwishes : (start (briskSettings.intervalMs * 1)).wishes twoTicks = [] := rfl
  have hopen : l.monitor.closed = false := rfl
  obtain ⟨hone, -, hshown⟩ :=
    no_fetch_overtakes hvalid hunit hanswered timed_twoTicks hwishes hopen .executor
  exact ⟨rfl, hone, hshown.trans rfl⟩

end Monitor.Loop

end Interlock

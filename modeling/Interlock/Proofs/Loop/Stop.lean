import Interlock.Proofs.Loop.Step
import Interlock.Safety.Verdict

/-!
# When a loop stops, and what is left of it

A loop stops by an event that it `Observes`: a `read` of the value `true`, or a `notice` when nobody
is left who could send. `Stage.after` computes the next stage from the stopper and the stage alone
(`stage_step`), so no other event makes it `Stopped`, at whatever time it comes (`stopped_step`).
From there `leave` is the only way on: it closes the `monitor` and drops the `queue`, and the stage
`.ended` is final (`stage_steps_of_ended`).
-/

namespace Interlock.Monitor.Loop

/-- The stage is `.leaving` or `.ended`. -/
def Stopped (l : Loop) : Prop := l.stage = .leaving ∨ l.stage = .ended

/-- The event is a `read` of `true`, or a `notice` with nothing unseen and nobody who could send. -/
def Observes (l : Loop) : Event → Prop
  | .read => l.stage = .noticed ∧ l.stopper.value = true
  | .notice => l.stage = .waiting ∧ l.stopper.unseen = false ∧ l.stopper.held = false
  | _ => False

/-! ## One event -/

/-- The stage after an event, from the stopper and the stage alone. -/
def Stage.after (stopper : Stopper) (stage : Stage) (e : Event) : Stage :=
  match stage, e with
  | .waiting, .notice =>
    if stopper.unseen then .noticed else if stopper.held then .waiting else .leaving
  | .noticed, .read => if stopper.value then .leaving else .waiting
  | .leaving, .leave => .ended
  | _, _ => stage

/-- The stage of `l.step now e` is `Stage.after`. -/
theorem stage_step (now : Nat) (l : Loop) (e : Event) :
    (l.step now e).stage = Stage.after l.stopper l.stage e := by
  cases e with
  | tick => cases hstage : l.stage <;> simp [step, order, Stage.after, hstage]
  | receive | land =>
    cases hstage : l.stage <;> simp only [step, hstage, Stage.after] <;> split <;> simp_all [order]
  | notice =>
    cases hstage : l.stage <;> simp only [step, hstage, Stage.after]
    cases l.stopper.unseen <;> cases l.stopper.held <;> simp [hstage]
  | read | leave => cases hstage : l.stage <;> simp [step, hstage, Stage.after]
  | begin i =>
    have hfetch (l : Loop) (k : Source) : (l.fetch now k).stage = l.stage := by
      unfold fetch
      split <;> rfl
    cases hstage : l.stage <;> simp only [step, Stage.after] <;> split <;> simp [hfetch, hstage]
  | ask r =>
    have hask : (l.ask r).2.stage = l.stage := by
      unfold ask
      split
      · rfl
      split <;> rfl
    cases hstage : l.stage <;> simp [step, Stage.after, hask, hstage]
  | tell value =>
    have htell : (l.tell value).2.stage = l.stage := by
      unfold tell
      split
      · rfl
      split <;> rfl
    cases hstage : l.stage <;> simp [step, Stage.after, htell, hstage]
  | clone | drop | release | close => cases hstage : l.stage <;> simp [step, Stage.after, hstage]

/-- `l.step now e` is `Stopped` if and only if `l` was, or `l` `Observes` the event. -/
theorem stopped_step (now : Nat) (l : Loop) (e : Event) :
    (l.step now e).Stopped ↔ l.Stopped ∨ l.Observes e := by
  unfold Stopped
  rw [stage_step]
  cases hstage : l.stage <;> cases e <;> simp [Stage.after, Observes, hstage]
  · cases l.stopper.unseen <;> cases l.stopper.held <;> simp
  · cases l.stopper.value <;> simp

/-- `leave` takes a `Stopped` loop to `.ended`. -/
theorem stage_leave {l : Loop} (h : l.Stopped) (now : Nat) :
    (l.step now .leave).stage = .ended := by
  rw [stage_step]
  rcases h with h | h <;> rw [h] <;> rfl

/-- `.ended` is final. -/
theorem stage_steps_of_ended {l : Loop} (h : l.stage = .ended) (es : List (Nat × Event)) :
    (l.steps es).stage = .ended := by
  induction es using List.reverseRecOn with
  | nil => exact h
  | append_singleton es e ih =>
    rw [steps_concat, stage_step, ih]
    rfl

theorem stage_steps_ne_absent {l : Loop} (h : l.stage ≠ .absent) (es : List (Nat × Event)) :
    (l.steps es).stage ≠ .absent := by
  induction es using List.reverseRecOn with
  | nil => exact h
  | append_singleton es e ih =>
    rw [steps_concat, stage_step]
    generalize (l.steps es).stopper = stopper
    unfold Stage.after
    split
    · split
      · simp
      split <;> simp
    · split <;> simp
    · simp
    · exact ih

/-- `.ended` is reached from `.leaving`, by `leave`. -/
theorem ended_step {now : Nat} {l : Loop} {e : Event} (h : (l.step now e).stage = .ended) :
    l.stage = .ended ∨ l.stage = .leaving ∧ e = .leave := by
  rw [stage_step] at h
  generalize l.stage = stage at h ⊢
  cases stage with
  | ended => exact .inl rfl
  | leaving =>
    cases e with
    | leave => exact .inr ⟨rfl, rfl⟩
    | _ => cases h
  | waiting =>
    cases e with
    | notice =>
      -- it goes to `.noticed` or `.leaving`, or goes on waiting
      simp only [Stage.after] at h
      split at h
      · cases h
      split at h <;> cases h
    | _ => cases h
  | noticed =>
    cases e with
    | read =>
      simp only [Stage.after] at h
      split at h <;> cases h
    | _ => cases h
  | absent => cases h

/-- `.ended → closed` is kept by every event. -/
theorem closed_step_of_ended {l : Loop} (h : l.stage = .ended → l.monitor.closed = true) (now : Nat)
    (e : Event) (hended : (l.step now e).stage = .ended) :
    (l.step now e).monitor.closed = true := by
  rcases ended_step hended with hstage | ⟨hstage, rfl⟩
  · have hsame : (l.step now e).monitor = l.monitor :=
      monitor_steps_of_closed (h hstage) [(now, e)]
    rw [hsame, h hstage]
  · simp [step, hstage, Monitor.close]

/-! ## Runs -/

/-- At stage `.ended` the `monitor` is closed. -/
theorem closed_of_ended {l : Loop} (h : l.stage ≠ .ended) (es : List (Nat × Event)) :
    (l.steps es).stage = .ended → (l.steps es).monitor.closed = true := by
  induction es using List.reverseRecOn with
  | nil => exact fun hended => absurd hended h
  | append_singleton es e ih =>
    rw [steps_concat]
    exact closed_step_of_ended ih e.1 e.2

/-- The run lemma of `stopped_step`: `Stopped` if and only if the loop `Observes` some event of
`es`. -/
theorem stopped_steps {l : Loop} (h : ¬ l.Stopped) (es : List (Nat × Event)) :
    (l.steps es).Stopped ↔
      ∃ before e, before ++ [e] <+: es ∧ (l.steps before).Observes e.2 := by
  induction es using List.reverseRecOn with
  | nil =>
    constructor
    · exact fun hstopped => absurd hstopped h
    · rintro ⟨before, e, hes, -⟩
      simp at hes
  | append_singleton es x ih =>
    rw [steps_concat, stopped_step, ih]
    constructor
    · rintro (⟨before, e, hes, hobserves⟩ | hobserves)
      · exact ⟨before, e, List.prefix_concat_iff.2 (.inr hes), hobserves⟩
      · exact ⟨es, x, List.prefix_rfl, hobserves⟩
    · rintro ⟨before, e, hes, hobserves⟩
      rcases List.prefix_concat_iff.1 hes with hlast | hes
      · obtain ⟨rfl, hx⟩ := List.append_inj' hlast rfl
        obtain rfl := List.singleton_inj.1 hx
        exact .inr hobserves
      · exact .inl ⟨before, e, hes, hobserves⟩

/-- A `land` on a closed monitor gives the fetch its result and publishes nothing. -/
theorem land_of_closed {l : Loop} (h : l.monitor.closed = true) {i : Nat} {f : Fetch}
    (hfetch : l.fetches[i]? = some f) (hunderWay : f.underWay = true) (now : Nat)
    (r : FetchResult) :
    (l.step now (.land i r)).fetches[i]? = some { f with result := some r } ∧
      (l.step now (.land i r)).monitor = l.monitor := by
  obtain ⟨k, number, begun, result⟩ := f
  obtain rfl : result = none := by simpa [Fetch.underWay] using hunderWay
  obtain ⟨hlt, -⟩ := List.getElem?_eq_some_iff.1 hfetch
  refine ⟨?_, monitor_steps_of_closed h [(now, .land i r)]⟩
  simp only [step, hfetch]
  exact List.getElem?_set_self hlt

/-- A loop is `Stopped` if and only if it `Observes` one of the events. If it goes on it is
`.ended`: the monitor is closed, `ask` is refused, and nothing changes the snapshot. -/
theorem stops_iff_told (interval : Nat) (monitor : Monitor) (queue : List RefreshRequest)
    (handles : Nat) (stopper : Stopper) (es : List (Nat × Event)) :
    let entered := enter interval monitor queue handles stopper
    let l := entered.steps es
    (l.Stopped ↔ ∃ before e, before ++ [e] <+: es ∧ (entered.steps before).Observes e.2) ∧
    (¬ l.Stopped → ∀ now,
      (l.stopper.value = false → ¬ (l.step now .read).Stopped) ∧
      (∀ i r, ¬ (l.step now (.land i r)).Stopped) ∧
      (∀ lost, (∀ e ∈ lost, e.2 = .drop) → ¬ (l.steps lost).Stopped)) ∧
    (l.Stopped → ∀ now, (l.step now .leave).stage = .ended) ∧
    (l.stage = .ended → l.monitor.closed = true ∧ ∀ later,
      let l' := l.steps later
      l'.stage = .ended ∧
      (∀ r, l'.handles ≠ 0 → l'.ask r = (some false, l')) ∧
      l'.monitor.snapshot = l.monitor.snapshot ∧
      Verdict.evaluate l'.monitor.snapshot = Verdict.evaluate l.monitor.snapshot ∧
      (Verdict.evaluate l'.monitor.snapshot).automationLocked =
        (Verdict.evaluate l.monitor.snapshot).automationLocked ∧
      ∀ i f now r, l'.fetches[i]? = some f → f.underWay = true →
        (l'.step now (.land i r)).fetches[i]? = some { f with result := some r } ∧
        (l'.step now (.land i r)).monitor = l'.monitor) := by
  intro entered l
  have hstage : entered.stage = if interval = 0 then .absent else .waiting := rfl
  have hentered : ¬ entered.Stopped := by
    unfold Stopped
    rw [hstage]
    split <;> simp
  have hfresh : entered.stage ≠ .ended := fun hended => hentered (.inr hended)
  refine ⟨stopped_steps hentered es, ?_, fun hstopped now => stage_leave hstopped now, ?_⟩
  · intro hgoing now
    refine ⟨?_, ?_, ?_⟩
    · intro hvalue
      rw [stopped_step]
      simp [hgoing, Observes, hvalue]
    · intro i r
      rw [stopped_step]
      simp [hgoing, Observes]
    · intro lost hlost
      rw [stopped_steps hgoing]
      rintro ⟨before, e, hbefore, hobserves⟩
      have hdrop : e.2 = .drop := hlost e (hbefore.subset (by simp))
      rw [hdrop] at hobserves
      exact hobserves
  · intro hended
    have hclosed : l.monitor.closed = true := closed_of_ended hfresh es hended
    refine ⟨hclosed, ?_⟩
    intro later l'
    have hmonitor : l'.monitor = l.monitor := monitor_steps_of_closed hclosed later
    have hended' : l'.stage = .ended := stage_steps_of_ended hended later
    refine ⟨hended', ?_, by rw [hmonitor], by rw [hmonitor], by rw [hmonitor], ?_⟩
    · intro r hhandles
      exact ask_of_not_running r hhandles (by simp [running, hended'])
    · intro i f now r hfetch hunderWay
      exact land_of_closed (by rw [hmonitor, hclosed]) hfetch hunderWay now r

end Interlock.Monitor.Loop

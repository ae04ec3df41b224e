import Interlock.Monitor.Loop
import Interlock.Proofs.Loop.Stop

/-!
# Histories that keep to the clock

The events of a loop may come at any time; of such histories nothing can be said about times. `Timed
script interval es now` is a history in which everything is done when it is due: `now` grows only
while the loop is `AtRest`. In it the n-th `tick` is taken at `n * interval` (`paced_timed`), and no
fetch is under way longer than `script` says (`onTime_timed`). What `Loop.run` does is `Timed`
(`timed_run`).
-/

namespace Interlock.Monitor.Loop

/-- The events that neither the loop nor its fetches cause. -/
def Event.byOthers : Event → Bool
  | .ask _ | .clone | .drop | .tell _ | .release | .close => true
  | _ => false

/-- The history `es` keeps to `interval` and `script`, and has come to `now`. -/
inductive Timed (script : Script) (interval : Nat) : List (Nat × Event) → Nat → Prop
  | start : Timed script interval [] 0
  /-- Others do what they like. -/
  | others {es now} (timed : Timed script interval es now) (e : Event)
      (others : e.byOthers = true) : Timed script interval (es ++ [(now, e)]) now
  /-- What happens by itself happens when it is due. -/
  | own {es now} (timed : Timed script interval es now) (e : Event)
      (ready : ((start interval).steps es).Ready script interval now e) :
      Timed script interval (es ++ [(now, e)]) now
  /-- Time passes while nothing is due. -/
  | pass {es now} (timed : Timed script interval es now)
      (rest : ((start interval).steps es).AtRest script interval now) :
      Timed script interval es (now + 1)

/-- A `Timed` history may go on with `next`. -/
theorem Timed.next {script : Script} {interval now : Nat} {es : List (Nat × Event)} {e : Event}
    (timed : Timed script interval es now)
    (h : ((Loop.start interval).steps es).next script interval now = some e) :
    Timed script interval (es ++ [(now, e)]) now :=
  timed.own e (ready_of_next script interval now h)

/-- Induction over `Timed` histories: events that are no `tick` before its time, and time that
passes `AtRest`. -/
theorem Timed.by_events {script : Script} {interval : Nat}
    {motive : ∀ es now, Timed script interval es now → Prop}
    (start : motive [] 0 .start)
    (event : ∀ es now (timed : Timed script interval es now) (e : Event),
      (e = .tick → ((Loop.start interval).steps es).Ready script interval now e) →
        ∀ timed' : Timed script interval (es ++ [(now, e)]) now,
          motive es now timed → motive (es ++ [(now, e)]) now timed')
    (pass : ∀ es now (timed : Timed script interval es now)
      (rest : ((Loop.start interval).steps es).AtRest script interval now),
      motive es now timed → motive es (now + 1) (timed.pass rest))
    {es : List (Nat × Event)} {now : Nat} (h : Timed script interval es now) : motive es now h := by
  induction h with
  | start => exact start
  | others timed e others ih =>
    refine event _ _ timed e ?_ _ ih
    rintro rfl
    cases others
  | own timed e ready ih => exact event _ _ timed e (fun _ => ready) _ ih
  | pass timed rest ih => exact pass _ _ timed rest ih

/-! ## At rest -/

namespace AtRest

variable {script : Script} {interval now : Nat} {l : Loop}

/-- `AtRest`, `ordered` is empty. -/
theorem ordered (h : l.AtRest script interval now) : l.ordered = [] := by
  cases hordered : l.ordered with
  | nil => rfl
  | cons k rest =>
    have hready : l.Ready script interval now (.begin 0) := by simp [Ready, hordered]
    exact absurd hready (h _)

/-- `AtRest`, `now < f.due script` for every fetch under way. -/
theorem lt_due (h : l.AtRest script interval now) {f : Fetch} (hf : f ∈ l.fetches)
    (hunderWay : f.underWay = true) : now < f.due script := by
  by_contra hle
  obtain ⟨i, hi⟩ := List.mem_iff_getElem?.1 hf
  have hdue : f.isDue script now = true := by simpa [Fetch.isDue, hunderWay] using hle
  exact h (.land i (f.answer script)) ⟨f, hi, hdue, rfl⟩

theorem waiting (h : l.AtRest script interval now) (hrunning : l.running = true) :
    l.stage = .waiting := by
  cases hstage : l.stage with
  | waiting => rfl
  | noticed => exact absurd hstage (h .read)
  | leaving => exact absurd hstage (h .leave)
  | ended | absent => simp [running, hstage] at hrunning

/-- `AtRest`, a waiting loop has emptied its `queue`. -/
theorem queue (h : l.AtRest script interval now) (hstage : l.stage = .waiting) : l.queue = [] := by
  by_contra hqueue
  exact h .receive ⟨hstage, hqueue⟩

/-- `AtRest`, the next tick is not due: `now < ticks * interval`. -/
theorem lt_tick (h : l.AtRest script interval now) (hstage : l.stage = .waiting)
    (hpos : 0 < interval) : now < l.ticks * interval := by
  by_contra hle
  have hdue : l.tickDue interval now = true := by simp [tickDue, hpos, Nat.le_of_not_lt hle]
  exact h .tick ⟨hstage, hdue⟩

end AtRest

/-! ## The ticks -/

/-- The `ticks` that the loop has taken by `now` are those that were due. -/
structure Paced (interval now : Nat) (l : Loop) : Prop where
  /-- A loop that runs has not missed a tick. -/
  punctual : l.running = true → now ≤ l.ticks * interval
  /-- No tick was taken before its time. -/
  patient : l.ticks * interval ≤ now + interval

/-- `Paced` is kept by every event but a `tick` that is not `Ready`. -/
theorem Paced.step {script : Script} {interval now : Nat} {l : Loop} (h : Paced interval now l)
    {e : Event} (he : e = .tick → l.Ready script interval now e) :
    Paced interval now (l.step now e) := by
  have hmove := move_step now l e
  generalize l.step now e = l' at hmove ⊢
  cases hmove with
  | tick waiting =>
    obtain ⟨-, hdue⟩ := he rfl
    have hnext : (l.ticks + 1) * interval = l.ticks * interval + interval := Nat.succ_mul _ _
    simp only [tickDue, Bool.and_eq_true, decide_eq_true_eq] at hdue
    constructor
    · intro hrunning
      have hle : now ≤ l.ticks * interval := h.punctual hrunning
      show now ≤ (l.ticks + 1) * interval
      omega
    · show (l.ticks + 1) * interval ≤ now + interval
      omega
  | receive | begin | forgo | land | asked => exact ⟨h.punctual, h.patient⟩
  | quiet _ _ _ ticks _ _ _ _ running =>
    constructor
    · intro hrunning
      rw [ticks]
      exact h.punctual (running hrunning)
    · rw [ticks]
      exact h.patient

/-- `Paced` is kept when time passes `AtRest`. -/
theorem Paced.pass {script : Script} {interval now : Nat} {l : Loop} (h : Paced interval now l)
    (hpos : 0 < interval) (hrest : l.AtRest script interval now) : Paced interval (now + 1) l where
  punctual hrunning := hrest.lt_tick (hrest.waiting hrunning) hpos
  patient := by
    have hpatient := h.patient
    omega

theorem paced_timed {script : Script} {interval : Nat} (hpos : 0 < interval)
    {es : List (Nat × Event)} {now : Nat} (h : Timed script interval es now) :
    Paced interval now ((start interval).steps es) := by
  induction h using Timed.by_events with
  | start => exact ⟨fun _ => Nat.zero_le _, by simp [steps, Loop.start, enter]⟩
  | event es now timed e tick timed' ih =>
    rw [steps_concat]
    exact ih.step tick
  | pass es now timed rest ih => exact ih.pass hpos rest

/-- `AtRest`, a running loop has taken `now / interval + 1` ticks. -/
theorem ticks_of_rest {script : Script} {interval now : Nat} {l : Loop} (hpos : 0 < interval)
    (h : Paced interval now l) (hrest : l.AtRest script interval now)
    (hrunning : l.running = true) : l.ticks = now / interval + 1 := by
  have hlt : now < l.ticks * interval := hrest.lt_tick (hrest.waiting hrunning) hpos
  have hpatient := h.patient
  obtain ⟨n, hn⟩ : ∃ n, l.ticks = n + 1 := by
    cases hticks : l.ticks with
    | zero => simp [hticks] at hlt
    | succ n => exact ⟨n, rfl⟩
  rw [hn] at hlt hpatient ⊢
  have hquotient : now / interval = n := by
    refine Nat.div_eq_of_lt_le ?_ hlt
    rw [Nat.succ_mul] at hpatient
    omega
  rw [hquotient]

/-! ## The fetches -/

/-- `begun ≤ now` for every fetch, and `now ≤ due` for those under way. -/
structure OnTime (script : Script) (now : Nat) (l : Loop) : Prop where
  le_due : ∀ f ∈ l.fetches, f.underWay = true → now ≤ f.due script
  begun_le : ∀ f ∈ l.fetches, f.begun ≤ now

theorem OnTime.step {script : Script} {now : Nat} {l : Loop} (h : OnTime script now l) (e : Event) :
    OnTime script now (l.step now e) := by
  have hmove := move_step now l e
  generalize l.step now e = l' at hmove ⊢
  cases hmove with
  | tick | receive | forgo | asked => exact ⟨h.le_due, h.begun_le⟩
  | begin i k =>
    constructor
    · intro f hf hunderWay
      rcases List.mem_append.1 hf with hf | hf
      · exact h.le_due f hf hunderWay
      · rw [List.mem_singleton.1 hf]
        exact Nat.le_add_right _ _
    · intro f hf
      rcases List.mem_append.1 hf with hf | hf
      · exact h.begun_le f hf
      · obtain rfl := List.mem_singleton.1 hf
        exact Nat.le_refl now
  | land i f r fetch underWay =>
    constructor
    · intro g hg hunderWay
      rcases List.mem_or_eq_of_mem_set hg with hg | rfl
      · exact h.le_due g hg hunderWay
      · cases hunderWay
    · intro g hg
      rcases List.mem_or_eq_of_mem_set hg with hg | rfl
      · exact h.begun_le g hg
      · exact h.begun_le f (List.mem_of_getElem? fetch)
  | quiet _ _ _ _ _ _ fetches =>
    constructor
    · rw [fetches]
      exact h.le_due
    · rw [fetches]
      exact h.begun_le

/-- The fetches of a `Timed` history are `OnTime`. -/
theorem onTime_timed {script : Script} {interval : Nat} {es : List (Nat × Event)} {now : Nat}
    (h : Timed script interval es now) : OnTime script now ((start interval).steps es) := by
  induction h using Timed.by_events with
  | start => exact ⟨by simp [steps, Loop.start, enter], by simp [steps, Loop.start, enter]⟩
  | event es now timed e tick timed' ih =>
    rw [steps_concat]
    exact ih.step e
  | pass es now timed rest ih =>
    constructor
    · intro f hf hunderWay
      exact rest.lt_due hf hunderWay
    · intro f hf
      exact Nat.le_succ_of_le (ih.begun_le f hf)

/-! ## Executed loops -/

section Executed

variable {script : Script} {interval : Nat}

/-- `Loop.settle` goes on with a `Timed` history. -/
theorem timed_settle {es : List (Nat × Event)} {now : Nat} (h : Timed script interval es now) :
    ∃ es', Timed script interval es' now ∧
      (start interval).steps es' = ((start interval).steps es).settle script interval now := by
  generalize hl : (start interval).steps es = l
  fun_induction settle script interval now l generalizing es with
  | case1 l hnext => exact ⟨es, h, hl⟩
  | case2 l e hnext ih =>
    rw [← hl] at hnext
    refine ih (h.next hnext) ?_
    rw [steps_concat, hl]

/-- `Loop.pass` goes on with a `Timed` history, and ends `AtRest`. -/
theorem timed_pass {es : List (Nat × Event)} {now : Nat} (h : Timed script interval es now)
    (hrest : ((start interval).steps es).AtRest script interval now) (n : Nat) :
    ∃ es', Timed script interval es' (now + n) ∧
      (start interval).steps es' = ((start interval).steps es).pass script interval n now ∧
      ((start interval).steps es').AtRest script interval (now + n) := by
  induction n generalizing es now with
  | zero => exact ⟨es, h, rfl, hrest⟩
  | succ n ih =>
    obtain ⟨es', htimed, hsettled⟩ := timed_settle (h.pass hrest)
    have hrest' : ((start interval).steps es').AtRest script interval (now + 1) := by
      rw [hsettled]
      exact atRest_settle script interval (now + 1) _
    obtain ⟨es'', htimed', hpassed, hrest''⟩ := ih htimed hrest'
    rw [hsettled] at hpassed
    rw [Nat.add_right_comm] at htimed' hrest''
    exact ⟨es'', htimed', hpassed, hrest''⟩

/-- `Loop.command` goes on with a `Timed` history. -/
theorem timed_command {es : List (Nat × Event)} {now : Nat} (h : Timed script interval es now)
    (c : Command) : ∃ es', Timed script interval es' now ∧
      (start interval).steps es' = ((start interval).steps es).command script interval now c := by
  unfold command
  cases he : c.event? with
  | none => exact ⟨es, h, rfl⟩
  | some e =>
    have hothers : e.byOthers = true := by
      cases c <;> cases he <;> rfl
    obtain ⟨es', htimed, hsettled⟩ := timed_settle (h.others e hothers)
    rw [steps_concat] at hsettled
    exact ⟨es', htimed, hsettled⟩

/-- `Loop.run` goes on with a `Timed` history, and every loop that it shows is `AtRest` after one.
-/
theorem timed_run {es : List (Nat × Event)} {now : Nat} (h : Timed script interval es now)
    (commands : List (Nat × Command)) :
    (∃ es' now', Timed script interval es' now' ∧
      (run script interval now commands ((start interval).steps es)).2 =
        (start interval).steps es') ∧
    ∀ seen ∈ (run script interval now commands ((start interval).steps es)).1,
      ∃ es' now' c, Timed script interval es' now' ∧
        ((start interval).steps es').AtRest script interval now' ∧
        seen = ((start interval).steps es').sight c := by
  induction commands generalizing es now with
  | nil => exact ⟨⟨es, now, h, rfl⟩, by simp [run]⟩
  | cons x rest ih =>
    obtain ⟨time, c⟩ := x
    obtain ⟨es₁, htimed₁, hsettled⟩ := timed_settle h
    have hrest₁ : ((start interval).steps es₁).AtRest script interval now := by
      rw [hsettled]
      exact atRest_settle script interval now _
    obtain ⟨es₂, htimed₂, hpassed, hrest₂⟩ := timed_pass htimed₁ hrest₁ (time - now)
    have hnow : now + (time - now) = max now time := by omega
    rw [hnow] at htimed₂ hrest₂
    obtain ⟨es₃, htimed₃, hcommand⟩ := timed_command htimed₂ c
    have hrun : run script interval now ((time, c) :: rest) ((start interval).steps es) =
        (((start interval).steps es₂).sight c ::
          (run script interval (max now time) rest ((start interval).steps es₃)).1,
          (run script interval (max now time) rest ((start interval).steps es₃)).2) := by
      simp only [run, ← hsettled, ← hpassed, ← hcommand]
    obtain ⟨hlast, hsights⟩ := ih htimed₃
    rw [hrun]
    refine ⟨hlast, ?_⟩
    intro seen hseen
    rcases List.mem_cons.1 hseen with rfl | hseen
    · exact ⟨es₂, _, c, htimed₂, hrest₂, rfl⟩
    · exact hsights seen hseen

end Executed

end Interlock.Monitor.Loop

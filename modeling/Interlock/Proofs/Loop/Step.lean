import Interlock.Monitor.Loop.Clock
import Interlock.Proofs.Monitor.Step
import Mathlib.Data.List.Induction

/-!
# What one event does to a loop

`Move now l e l'` lists what an event `e` can make of a loop: of its `fetches`, `ordered` and
`queue` and of its `monitor`, with the conditions under which it does it. `move_step` says that
`l.step now e` is always one of these. The monitor makes at most one `Monitor.step` in it
(`monitor_step`), so a closed monitor stays as it is (`monitor_steps_of_closed`).
-/

namespace Interlock.Monitor.Loop

theorem steps_concat (l : Loop) (es : List (Nat × Event)) (e : Nat × Event) :
    l.steps (es ++ [e]) = (l.steps es).step e.1 e.2 := by
  unfold steps
  rw [List.foldl_append]
  rfl

theorem steps_append (l : Loop) (es es' : List (Nat × Event)) :
    l.steps (es ++ es') = (l.steps es).steps es' := by
  unfold steps
  rw [List.foldl_append]

/-! ## The moves -/

/-- The wish of an `ask` that reaches the `queue`. -/
def Event.wish? (l : Loop) : Event → Option RefreshRequest
  | .ask r => if (l.ask r).1 = some true then some r else none
  | _ => none

/-- What an event can make of a loop. -/
inductive Move (now : Nat) (l : Loop) : Event → Loop → Prop
  /-- A tick orders a fetch of every source. -/
  | tick (waiting : l.stage = .waiting) :
      Move now l .tick { l with ticks := l.ticks + 1, ordered := l.ordered ++ Source.all }
  /-- The oldest wish orders what it names. -/
  | receive (r : RefreshRequest) (rest : List RefreshRequest) (waiting : l.stage = .waiting)
      (queue : l.queue = r :: rest) :
      Move now l .receive { l with queue := rest, ordered := l.ordered ++ r.sources }
  /-- A fetch begins. -/
  | begin (i : Nat) (k : Source) (ordered : l.ordered[i]? = some k)
      (opened : l.monitor.closed = false) :
      Move now l (.begin i) { l with
        ordered := l.ordered.eraseIdx i
        monitor := l.monitor.step (.begin k)
        fetches := l.fetches ++ [⟨k, l.requestCount k, now, none⟩] }
  /-- A fetch is given up, because the monitor is closed. -/
  | forgo (i : Nat) (k : Source) (ordered : l.ordered[i]? = some k)
      (closed : l.monitor.closed = true) :
      Move now l (.begin i) { l with ordered := l.ordered.eraseIdx i }
  /-- A fetch under way lands. -/
  | land (i : Nat) (f : Fetch) (r : FetchResult) (fetch : l.fetches[i]? = some f)
      (underWay : f.underWay = true) :
      Move now l (.land i r) { l with
        monitor := l.monitor.land f.source r ⟨now⟩
        fetches := l.fetches.set i { f with result := some r } }
  /-- A wish reaches the loop. -/
  | asked (r : RefreshRequest) (heard : (Event.ask r).wish? l = some r) :
      Move now l (.ask r) { l with queue := l.queue ++ [r] }
  /-- None of these. -/
  | quiet (e : Event) (l' : Loop) (wish : e.wish? l = none) (ticks : l'.ticks = l.ticks)
      (queue : l'.queue = l.queue) (ordered : l'.ordered = l.ordered)
      (fetches : l'.fetches = l.fetches)
      (monitor : l'.monitor = l.monitor ∨ l'.monitor = l.monitor.close)
      (running : l'.running = true → l.running = true) : Move now l e l'

/-- An event without a `wish?` may leave the loop as it is. -/
theorem move_nothing (now : Nat) (l : Loop) {e : Event} (h : e.wish? l = none) : Move now l e l :=
  .quiet e l h rfl rfl rfl rfl (.inl rfl) id

/-- `ask` on a running loop with a handle appends to `queue`. -/
theorem ask_of_running {l : Loop} (r : RefreshRequest) (hhandles : l.handles ≠ 0)
    (hrunning : l.running = true) : l.ask r = (some true, { l with queue := l.queue ++ [r] }) := by
  unfold ask
  rw [if_neg hhandles, if_pos hrunning]

/-- `ask` on a loop that does not run answers `false` and changes nothing. -/
theorem ask_of_not_running {l : Loop} (r : RefreshRequest) (hhandles : l.handles ≠ 0)
    (hrunning : l.running = false) : l.ask r = (some false, l) := by
  unfold ask
  rw [if_neg hhandles, if_neg (by simp [hrunning])]

/-- `ask` is a `Move`. -/
theorem move_ask (now : Nat) (l : Loop) (r : RefreshRequest) :
    Move now l (.ask r) (l.ask r).2 := by
  by_cases hhandles : l.handles = 0
  · have hask : l.ask r = (none, l) := if_pos hhandles
    have hwish : (Event.ask r).wish? l = none := by simp [Event.wish?, hask]
    rw [hask]
    exact move_nothing now l hwish
  cases hrunning : l.running with
  | true =>
    have hask := ask_of_running r hhandles hrunning
    have hwish : (Event.ask r).wish? l = some r := by simp [Event.wish?, hask]
    rw [hask]
    exact .asked r hwish
  | false =>
    have hask := ask_of_not_running r hhandles hrunning
    have hwish : (Event.ask r).wish? l = none := by simp [Event.wish?, hask]
    rw [hask]
    exact move_nothing now l hwish

/-- `step` is a `Move`, for every event. -/
theorem move_step (now : Nat) (l : Loop) (e : Event) : Move now l e (l.step now e) := by
  cases e with
  | tick =>
    simp only [step]
    split
    · next hstage => exact .tick hstage
    · exact move_nothing now l rfl
  | receive =>
    simp only [step]
    split
    · next r rest hstage hqueue => exact .receive r rest hstage hqueue
    · exact move_nothing now l rfl
  | begin i =>
    simp only [step]
    split
    · next k hordered =>
      cases hclosed : l.monitor.closed with
      | true =>
        have hforgo : Move now l (.begin i) _ := .forgo i k hordered hclosed
        simpa only [fetch, Monitor.begin, hclosed, if_true] using hforgo
      | false =>
        have hbegin : Move now l (.begin i) _ := .begin i k hordered hclosed
        simpa only [fetch, requestCount, Monitor.step, Monitor.begin, hclosed, Bool.false_eq_true,
          if_false] using hbegin
    · exact move_nothing now l rfl
  | land i r =>
    simp only [step]
    split
    · next k number begun hfetch => exact .land i _ r hfetch rfl
    · exact move_nothing now l rfl
  | ask r => exact move_ask now l r
  | notice =>
    simp only [step]
    split
    · next hstage =>
      have hrunning : l.running = true := by simp [running, hstage]
      split
      · exact .quiet _ _ rfl rfl rfl rfl rfl (.inl rfl) fun _ => hrunning
      split
      · exact move_nothing now l rfl
      · exact .quiet _ _ rfl rfl rfl rfl rfl (.inl rfl) fun _ => hrunning
    · exact move_nothing now l rfl
  | read =>
    simp only [step]
    split
    · next hstage =>
      have hrunning : l.running = true := by simp [running, hstage]
      exact .quiet _ _ rfl rfl rfl rfl rfl (.inl rfl) fun _ => hrunning
    · exact move_nothing now l rfl
  | leave =>
    simp only [step]
    split
    · next hstage =>
      have hrunning : l.running = true := by simp [running, hstage]
      exact .quiet _ _ rfl rfl rfl rfl rfl (.inr rfl) fun _ => hrunning
    · exact move_nothing now l rfl
  | tell value =>
    simp only [step, tell]
    split
    · exact move_nothing now l rfl
    split
    · exact .quiet _ _ rfl rfl rfl rfl rfl (.inl rfl) id
    · exact move_nothing now l rfl
  | clone | drop | release => exact .quiet _ _ rfl rfl rfl rfl rfl (.inl rfl) id
  | close => exact .quiet _ _ rfl rfl rfl rfl rfl (.inr rfl) id

/-! ## The monitor -/

/-- An event of the loop is at most one event to its `monitor`. -/
theorem monitor_step (now : Nat) (l : Loop) (e : Event) :
    (l.step now e).monitor = l.monitor ∨ ∃ e', (l.step now e).monitor = l.monitor.step e' := by
  have hmove := move_step now l e
  generalize l.step now e = l' at hmove ⊢
  cases hmove with
  | tick | receive | forgo | asked => exact .inl rfl
  | begin i k => exact .inr ⟨.begin k, rfl⟩
  | land i f r => exact .inr ⟨.land f.source r ⟨now⟩, rfl⟩
  | quiet _ _ _ _ _ _ _ monitor =>
    rcases monitor with monitor | monitor
    · exact .inl monitor
    · exact .inr ⟨.close, monitor⟩

/-- A closed `monitor` stays as it is, whatever happens to its loop. -/
theorem monitor_steps_of_closed {l : Loop} (h : l.monitor.closed = true)
    (es : List (Nat × Event)) : (l.steps es).monitor = l.monitor := by
  induction es using List.reverseRecOn with
  | nil => rfl
  | append_singleton es e ih =>
    rw [steps_concat]
    rcases monitor_step e.1 (l.steps es) e.2 with hsame | ⟨e', hstep⟩
    · exact hsame.trans ih
    · rw [hstep, ih]
      exact run_of_closed h [e']

theorem open_of_step {now : Nat} {l : Loop} {e : Event}
    (h : (l.step now e).monitor.closed = false) : l.monitor.closed = false := by
  cases hclosed : l.monitor.closed with
  | false => rfl
  | true =>
    have hsame : (l.step now e).monitor = l.monitor := monitor_steps_of_closed hclosed [(now, e)]
    rw [hsame, hclosed] at h
    cases h

end Interlock.Monitor.Loop

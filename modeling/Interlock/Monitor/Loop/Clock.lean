import Interlock.Monitor.Loop.Basic

/-!
# The loop and the clock

Time is counted in whole units and starts at zero; the n-th tick is due after n intervals. A script
says how long each request is under way and how it is answered. `Ready` says what is due at a time
to happen by itself. Time passes only once nothing is: `settle` does what is ready, one event after
the other, until the loop is at rest, and `pass` lets time pass from rest to rest.
-/

namespace Interlock.Monitor

/-- How the requests of a source are answered: for the n-th request, after how long and with which
result. -/
abbrev Script := Source → Nat → Nat × FetchResult

/-- When a fetch lands by the script. -/
def Fetch.due (script : Script) (f : Fetch) : Nat := f.begun + (script f.source f.number).1

/-- How a fetch ends by the script. -/
def Fetch.answer (script : Script) (f : Fetch) : FetchResult := (script f.source f.number).2

/-- Whether a fetch is still under way though it is time for it to land. -/
def Fetch.isDue (script : Script) (now : Nat) (f : Fetch) : Bool :=
  f.underWay && f.due script ≤ now

namespace Loop

section Clock

variable (script : Script) (interval now : Nat) (l : Loop)

/-- Whether the next tick is due. An interval of zero has no ticks. -/
def tickDue : Bool := 0 < interval && l.ticks * interval ≤ now

/-- What is due to happen by itself. What others do never is. -/
def Ready : Event → Prop
  | .tick => l.stage = .waiting ∧ l.tickDue interval now = true
  | .receive => l.stage = .waiting ∧ l.queue ≠ []
  | .notice => l.stage = .waiting ∧ (l.stopper.unseen = true ∨ l.stopper.held = false)
  | .read => l.stage = .noticed
  | .leave => l.stage = .leaving
  | .begin i => i < l.ordered.length
  | .land i r => ∃ f, l.fetches[i]? = some f ∧ f.isDue script now = true ∧ r = f.answer script
  | _ => False

/-- The loop is at rest: nothing is due. -/
def AtRest : Prop := ∀ e, ¬ l.Ready script interval now e

/-- What a waiting loop does next. -/
def choose : Option Event :=
  if l.tickDue interval now then some .tick
  else if !l.queue.isEmpty then some .receive
  else if l.stopper.unseen || !l.stopper.held then some .notice
  else none

/-- One event that is ready, if there is any: landings come before beginnings, and both before what
the loop does. -/
def next : Option Event :=
  match l.fetches.findIdx? (Fetch.isDue script now) with
  | some i => (l.fetches[i]?).map fun f => .land i (f.answer script)
  | none =>
    if !l.ordered.isEmpty then some (.begin 0)
    else
      match l.stage with
      | .waiting => l.choose interval now
      | .noticed => some .read
      | .leaving => some .leave
      | .ended | .absent => none

/-! ## What is left to do -/

/-- How much the loop itself may still do before it rests. -/
def Stage.work : Stage → Nat
  | .waiting => 2
  | .noticed => 3
  | .leaving => 1
  | .ended | .absent => 0

/-- A bound on the events that can happen before the loop rests. A tick that is due or a wish that
waits orders at most four fetches, and a fetch that is ordered begins and lands. -/
def work : Nat :=
  9 * (now + 1 - l.ticks * interval) + 9 * l.queue.length + 2 * l.ordered.length +
    l.fetches.countP Fetch.underWay + Stage.work l.stage + if l.stopper.unseen then 2 else 0

/-- What a waiting loop does next is ready. -/
theorem ready_of_choose {l : Loop} {e : Event} (hstage : l.stage = .waiting)
    (h : l.choose interval now = some e) : l.Ready script interval now e := by
  unfold choose at h
  split at h
  · next htick =>
    cases h
    exact ⟨hstage, htick⟩
  split at h
  · next hqueue =>
    cases h
    exact ⟨hstage, by simpa using hqueue⟩
  split at h
  · next hword =>
    cases h
    exact ⟨hstage, by simpa using hword⟩
  · cases h

/-- A waiting loop that has nothing to do has no tick, no wish and no word. -/
theorem choose_eq_none (h : l.choose interval now = none) : l.tickDue interval now = false ∧
    l.queue = [] ∧ l.stopper.unseen = false ∧ l.stopper.held = true := by
  unfold choose at h
  split at h
  · cases h
  split at h
  · cases h
  split at h
  · cases h
  · next htick hqueue hword => simp_all

/-- What is done next is ready. -/
theorem ready_of_next {l : Loop} {e : Event} (h : l.next script interval now = some e) :
    l.Ready script interval now e := by
  unfold next at h
  split at h
  · next i hi =>
    obtain ⟨hlt, hdue, -⟩ := List.findIdx?_eq_some_iff_getElem.1 hi
    rw [List.getElem?_eq_getElem hlt] at h
    cases h
    exact ⟨_, List.getElem?_eq_getElem hlt, hdue, rfl⟩
  split at h
  · next hordered =>
    cases h
    exact List.length_pos_iff.2 (by simpa using hordered)
  split at h
  · next hstage => exact ready_of_choose script interval now hstage h
  · next hstage =>
    cases h
    exact hstage
  · next hstage =>
    cases h
    exact hstage
  · cases h
  · cases h

/-- If there is nothing to be done next, the loop is at rest. -/
theorem atRest_of_next {l : Loop} (h : l.next script interval now = none) :
    l.AtRest script interval now := by
  unfold next at h
  split at h
  · next i hi =>
    obtain ⟨hlt, -, -⟩ := List.findIdx?_eq_some_iff_getElem.1 hi
    rw [List.getElem?_eq_getElem hlt] at h
    cases h
  next hlandings =>
  split at h
  · cases h
  next hordered =>
  have hwaiting : l.stage = .waiting → l.tickDue interval now = false ∧ l.queue = [] ∧
      l.stopper.unseen = false ∧ l.stopper.held = true := by
    intro hstage
    rw [hstage] at h
    exact choose_eq_none interval now l h
  intro e he
  cases e with
  | tick =>
    have hnone := (hwaiting he.1).1
    rw [he.2] at hnone
    cases hnone
  | receive => exact he.2 (hwaiting he.1).2.1
  | notice =>
    obtain ⟨-, -, hseen, hheld⟩ := hwaiting he.1
    rcases he.2 with hword | hword
    · rw [hseen] at hword
      cases hword
    · rw [hheld] at hword
      cases hword
  | read =>
    rw [show l.stage = .noticed from he] at h
    cases h
  | leave =>
    rw [show l.stage = .leaving from he] at h
    cases h
  | begin i =>
    have hlt : i < l.ordered.length := he
    simp_all
  | land i r =>
    obtain ⟨f, hf, hdue, -⟩ := he
    rw [List.findIdx?_eq_none_iff.1 hlandings f (List.mem_of_getElem? hf)] at hdue
    cases hdue
  | ask | clone | drop | tell | release | close => exact he

/-- Each event that is ready leaves less to do. -/
theorem work_step_lt {l : Loop} {e : Event} (h : l.Ready script interval now e) :
    (l.step now e).work interval now < l.work interval now := by
  cases e with
  | tick =>
    obtain ⟨hstage, hdue⟩ := h
    simp only [tickDue, Bool.and_eq_true, decide_eq_true_eq] at hdue
    have hnext : (l.ticks + 1) * interval = l.ticks * interval + interval := Nat.succ_mul _ _
    simp only [step, hstage, order, work, List.length_append, RefreshRequest.sources, Source.all,
      List.length_cons, List.length_nil, hnext]
    omega
  | receive =>
    obtain ⟨hstage, hqueue⟩ := h
    obtain ⟨r, rest, hcons⟩ := List.exists_cons_of_ne_nil hqueue
    have hsources : r.sources.length ≤ 4 := by cases r <;> simp [RefreshRequest.sources, Source.all]
    simp only [step, hstage, hcons, order, work, List.length_append, List.length_cons]
    omega
  | notice =>
    obtain ⟨hstage, hword⟩ := h
    cases hunseen : l.stopper.unseen with
    | true =>
      simp only [step, hstage, hunseen, work, Stage.work]
      simp
    | false =>
      have hheld : l.stopper.held = false := hword.resolve_left (by simp [hunseen])
      simp only [step, hstage, hunseen, hheld, work, Stage.work]
      simp [hunseen]
  | read =>
    have hstage : l.stage = .noticed := h
    simp only [step, hstage, work]
    cases l.stopper.value <;> simp [Stage.work]
  | leave =>
    have hstage : l.stage = .leaving := h
    simp only [step, hstage, work, Stage.work]
    omega
  | begin i =>
    have hlt : i < l.ordered.length := h
    simp only [step, List.getElem?_eq_getElem hlt, fetch]
    have hlength := List.length_eraseIdx_of_lt hlt
    split
    · simp only [work, hlength]
      omega
    · simp only [work, hlength, List.countP_append, List.countP_singleton, Fetch.underWay,
        Option.isNone_none, if_true]
      omega
  | land i r =>
    obtain ⟨⟨k, number, begun, result⟩, hf, hdue, -⟩ := h
    simp only [Fetch.isDue, Fetch.underWay, Bool.and_eq_true, Option.isNone_iff_eq_none] at hdue
    obtain ⟨rfl, -⟩ := hdue
    obtain ⟨hlt, hi⟩ := List.getElem?_eq_some_iff.1 hf
    have hpos : 0 < l.fetches.countP Fetch.underWay :=
      List.countP_pos_iff.2 ⟨_, List.mem_of_getElem? hf, rfl⟩
    simp only [step, hf, work, List.countP_set hlt, hi, Fetch.underWay, Option.isNone_none,
      Option.isNone_some, if_true, Bool.false_eq_true, if_false]
    omega
  | ask | clone | drop | tell | release | close => exact h.elim

/-- Does what is ready, one event after the other, until the loop is at rest. -/
def settle (l : Loop) : Loop :=
  match _h : l.next script interval now with
  | none => l
  | some e => settle (l.step now e)
termination_by l.work interval now
decreasing_by exact work_step_lt script interval now (ready_of_next script interval now _h)

/-- A loop is at rest once it has settled. -/
theorem atRest_settle (l : Loop) : (l.settle script interval now).AtRest script interval now := by
  fun_induction settle script interval now l with
  | case1 l h => exact atRest_of_next script interval now h
  | case2 _ _ _ ih => exact ih

end Clock

/-- Lets `n` units of time pass; `now` is the time at which the loop rests. -/
def pass (script : Script) (interval : Nat) : (n now : Nat) → Loop → Loop
  | 0, _, l => l
  | n + 1, now, l => pass script interval n (now + 1) (l.settle script interval (now + 1))

end Loop

end Interlock.Monitor

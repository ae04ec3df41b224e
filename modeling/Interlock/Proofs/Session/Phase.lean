import Interlock.Proofs.Fetch.Pending
import Interlock.Proofs.Session.Fetches

/-!
# When a source shows fetching

To the slot of a source, a session with an open monitor is a sequence of `Slot.Event`
(`slot_run_of_open`). In a session a fetch lands only under the number under which it began, and
only once, so `inFlight` counts exactly the fetches that are `Unlanded` (`tallied_run`), and the
phase is `.fetching` as long as there is one.
-/

namespace Interlock

namespace Monitor

/-- The `Slot.Event` of the slot of `k`, if the event concerns it. -/
def Event.toSlot (k : Source) : Event → List (Slot.Event k.Record)
  | .begin k' => if k' = k then [.begin] else []
  | .land k' r now => if k' = k then [.settle r (k.read r.usablePayload) now] else []
  | .close => []

theorem Event.onSlot_eq_steps (k : Source) (e : Event) (s : Slot k.Record) :
    e.onSlot k s = s.steps (e.toSlot k) := by
  cases e with
  | begin k' =>
    simp only [onSlot, toSlot]
    split <;> rfl
  | land k' r now =>
    simp only [onSlot, toSlot]
    split <;> rfl
  | close => rfl

/-- While the monitor is open, the slot of `k` goes through the `toSlot` of the events. -/
theorem slot_run_of_open {m : Monitor} (h : m.closed = false) {es : List Event}
    (hes : ∀ e ∈ es, e.isClose = false) (k : Source) :
    (m.run es).snapshot.slot k = (m.snapshot.slot k).steps (es.flatMap (Event.toSlot k)) := by
  induction es generalizing m with
  | nil => rfl
  | cons e es ih =>
    have he : e.isClose = false := hes e List.mem_cons_self
    have hopen : (m.step e).closed = false := by rw [closed_step, h, he, Bool.false_or]
    have hslot : (m.step e).snapshot.slot k = (m.snapshot.slot k).steps (e.toSlot k) := by
      rw [slot_step, h, if_neg Bool.false_ne_true, Event.onSlot_eq_steps]
    show ((m.step e).run es).snapshot.slot k = _
    rw [ih hopen fun e' he' => hes e' (List.mem_cons_of_mem e he'), hslot, List.flatMap_cons]
    simp only [Slot.steps, List.foldl_append]

/-- Every slot of a monitor is `Coherent`: `.fetching` if and only if `0 < inFlight`. -/
theorem coherent_run (es : List Event) (k : Source) :
    ((fresh.run es).snapshot.slot k).Coherent := by
  induction es using List.reverseRecOn with
  | nil => cases k <;> exact Slot.coherent_fresh _
  | append_singleton es e ih =>
    have hconcat : fresh.run (es ++ [e]) = (fresh.run es).step e := run_append fresh es [e]
    rw [hconcat, slot_step]
    split
    · exact ih
    · rw [Event.onSlot_eq_steps]
      exact Slot.fetching_iff_steps ih _

end Monitor

namespace Session

/-! ## The fetches that are left under way -/

/-- What a step does to `fetches`. -/
theorem fetches_step (s : Session) (now : Instant) (e : Event) :
    (s.step now e).2.fetches = match e with
      | .start k => if s.monitor.closed then s.fetches else s.fetches ++ [some k]
      | .settle id _ => s.fetches.set id none
      | _ => s.fetches := by
  cases e with
  | start k =>
    cases hclosed : s.monitor.closed with
    | true => simp [step, Monitor.begin, hclosed]
    | false => simp [step, Monitor.begin, hclosed]
  | settle id r =>
    simp only [step]
    split
    · next hnone => exact (List.set_eq_of_length_le (List.getElem?_eq_none_iff.1 hnone)).symm
    · next hsettled =>
      obtain ⟨hlt, hid⟩ := List.getElem?_eq_some_iff.1 hsettled
      rw [← hid, List.set_getElem_self]
    · rfl
  | key action =>
    simp only [step, pressKey]
    cases hpress : s.console.press action with
    | mk command console => cases command <;> rfl
  | sync =>
    simp only [step]
    split <;> rfl
  | post id kill lock =>
    simp only [step]
    split <;> rfl
  | deliver id =>
    simp only [step]
    split <;> rfl
  | send kill lock =>
    simp only [step]
    split <;> rfl
  | refresh | refreshAll | close | press | begin | finish | confirm | request | dropRequests => rfl

/-- `inFlight` of `k` is the number of entries `some k` of `fetches`. -/
def Tallied (s : Session) : Prop :=
  ∀ k, (s.monitor.snapshot.slot k).inFlight = s.fetches.count (some k)

/-- `slot_run_of_open` for one step of a session. -/
theorem slot_step_of_open {s : Session} (h : s.monitor.closed = false) (now : Instant) {e : Event}
    (he : e ≠ .close) (k : Source) :
    (s.step now e).2.monitor.snapshot.slot k = (s.monitor.snapshot.slot k).steps
      ((s.monitorEvents now e).flatMap (Monitor.Event.toSlot k)) := by
  rw [monitor_step]
  exact Monitor.slot_run_of_open h (s.isClose_monitorEvents now he) k

/-- A step keeps `Tallied` while the monitor is open. -/
theorem Tallied.step {s : Session} (h : s.Tallied) (hopen : s.monitor.closed = false)
    (now : Instant) (e : Event) : (s.step now e).2.Tallied := by
  intro k
  by_cases hclose : e = .close
  · subst hclose
    exact h k
  rw [slot_step_of_open hopen now hclose, fetches_step]
  cases e with
  | close => exact absurd rfl hclose
  | refresh k' r =>
    -- a fetch to the end begins and lands
    have hevents : (s.monitorEvents now (.refresh k' r)).flatMap (Monitor.Event.toSlot k) =
        if k' = k then [.begin, .settle r (k.read r.usablePayload) now] else [] := by
      simp only [monitorEvents, List.flatMap_cons, List.flatMap_nil, Monitor.Event.toSlot]
      split <;> rfl
    rw [hevents]
    split <;> exact h k
  | refreshAll results =>
    have hevents : (s.monitorEvents now (.refreshAll results)).flatMap (Monitor.Event.toSlot k) =
        [.begin, .settle (results k) (k.read (results k).usablePayload) now] := by
      cases k <;> rfl
    rw [hevents]
    exact h k
  | start k' =>
    simp only [hopen, Bool.false_eq_true, if_false, monitorEvents, List.flatMap_cons,
      List.flatMap_nil, List.append_nil, Monitor.Event.toSlot, List.count_append]
    by_cases hk : k' = k
    · subst hk
      rw [if_pos rfl, ← h k', List.count_singleton_self]
      rfl
    · rw [if_neg hk, ← h k, List.count_singleton, if_neg (by simpa using hk)]
      rfl
  | settle id r =>
    simp only [monitorEvents]
    split
    · next k' hid =>
      obtain ⟨hlt, hget⟩ := List.getElem?_eq_some_iff.1 hid
      simp only [List.flatMap_cons, List.flatMap_nil, List.append_nil, Monitor.Event.toSlot,
        List.count_set hlt, hget]
      by_cases hk : k' = k
      · subst hk
        rw [if_pos rfl, ← h k']
        simp [Slot.steps, Slot.step, Slot.settle]
      · rw [if_neg hk, ← h k]
        simp [Slot.steps, hk]
    · next hid =>
      -- no fetch is left under way under this number
      have hsame : s.fetches.set id none = s.fetches := by
        by_cases hlt : id < s.fetches.length
        · have hnone : s.fetches[id] = none := by
            cases hget : s.fetches[id] with
            | none => rfl
            | some k' => exact absurd (List.getElem?_eq_some_iff.2 ⟨hlt, hget⟩) (hid k')
          rw [← hnone, List.set_getElem_self]
        · exact List.set_eq_of_length_le (by omega)
      rw [hsame]
      exact h k
  | _ => exact h k

theorem open_of_step {s : Session} {now : Instant} {e : Event}
    (h : (s.step now e).2.monitor.closed = false) : s.monitor.closed = false := by
  cases hclosed : s.monitor.closed with
  | false => rfl
  | true =>
    rw [monitor_step, Monitor.run_of_closed hclosed, hclosed] at h
    cases h

/-- A run with an open monitor is `Tallied`. -/
theorem tallied_run (es : List (Instant × Event)) (h : (run fresh es).monitor.closed = false) :
    (run fresh es).Tallied := by
  induction es using List.reverseRecOn with
  | nil =>
    intro k
    cases k <;> rfl
  | append_singleton es e ih =>
    rw [run_concat] at h ⊢
    have hopen := open_of_step h
    exact (ih hopen).step hopen e.1 e.2

/-! ## The history of one fetch -/

/-- A fetch of `k` was `.started` under `id`, and no `settle id` has come since. -/
def Unlanded (es : List (Instant × Event)) (k : Source) (id : Nat) : Prop :=
  ∃ before now after, es = before ++ (now, .start k) :: after ∧
    ((run fresh before).step now (.start k)).1.answer = .started (some id) ∧
    ∀ t r, (t, Event.settle id r) ∉ after

/-- `Unlanded` of a run that is longer by one. -/
theorem unlanded_concat {es : List (Instant × Event)} {e : Instant × Event} {k : Source}
    {id : Nat} : Unlanded (es ++ [e]) k id ↔
      (Unlanded es k id ∧ ∀ t r, e ≠ (t, .settle id r)) ∨
      e.2 = .start k ∧ ((run fresh es).step e.1 e.2).1.answer = .started (some id) := by
  constructor
  · rintro ⟨before, now, after, hes, hbegan, hafter⟩
    rcases List.eq_nil_or_concat' after with rfl | ⟨rest, x, rfl⟩
    · obtain ⟨rfl, hlast⟩ := List.append_inj' hes rfl
      obtain rfl := List.singleton_inj.1 hlast
      exact .inr ⟨rfl, hbegan⟩
    · have hsplit : es ++ [e] = (before ++ (now, .start k) :: rest) ++ [x] := by
        rw [hes, List.append_assoc, List.cons_append]
      obtain ⟨rfl, hlast⟩ := List.append_inj' hsplit rfl
      obtain rfl := List.singleton_inj.1 hlast
      refine .inl ⟨⟨before, now, rest, rfl, hbegan, ?_⟩, ?_⟩
      · intro t r hmem
        exact hafter t r (List.mem_append_left _ hmem)
      · rintro t r rfl
        exact hafter t r (List.mem_append_right _ (List.mem_singleton_self _))
  · rintro (⟨⟨before, now, after, rfl, hbegan, hafter⟩, he⟩ | ⟨he, hbegan⟩)
    · refine ⟨before, now, after ++ [e], by simp, hbegan, ?_⟩
      intro t r hmem
      rcases List.mem_append.1 hmem with hmem | hmem
      · exact hafter t r hmem
      · exact he t r (List.mem_singleton.1 hmem).symm
    · obtain ⟨now, e⟩ := e
      subst he
      exact ⟨es, now, [], rfl, hbegan, by simp⟩

/-- `fetches[id]? = some (some k)` if and only if it is `Unlanded`. -/
theorem unlanded_iff (es : List (Instant × Event)) (k : Source) (id : Nat) :
    (run fresh es).fetches[id]? = some (some k) ↔ Unlanded es k id := by
  induction es using List.reverseRecOn with
  | nil =>
    constructor
    · intro h
      simp [run, fresh] at h
    · rintro ⟨before, now, after, h, -⟩
      simp at h
  | append_singleton es e ih =>
    obtain ⟨now, e⟩ := e
    rw [unlanded_concat, ← ih, run_concat, fetches_step]
    generalize run fresh es = s
    cases e with
    | start k' =>
      cases hclosed : s.monitor.closed with
      | true => simp [step, Monitor.begin, hclosed, Effect.just]
      | false =>
        simp only [step, Monitor.begin, hclosed, Effect.just, Bool.false_eq_true, if_false,
          Event.start.injEq, Answer.started.injEq, Option.some.injEq]
        rw [List.getElem?_append]
        split
        · next hlt => simp; omega
        · next hge =>
          have hnone : s.fetches[id]? = none := List.getElem?_eq_none (by omega)
          rw [hnone]
          simp only [List.getElem?_singleton]
          split
          · next h => simp; omega
          · next h => simp; omega
    | settle i r =>
      by_cases hid : i = id
      · subst hid
        rw [List.getElem?_set_self']
        cases s.fetches[i]? <;> simp
      · rw [List.getElem?_set_ne hid]
        simp [hid]
    | _ => simp

/-! ## The phase -/

/-- The phase of a slot is `.fetching` if and only if `0 < inFlight`, the greatest balance over the
ends of `ops`. In a session with an open monitor, that is if and only if a fetch of `k` is
`Unlanded`. -/
theorem fetching_while_unlanded (k : Source) (ops : List (Slot.Event k.Record))
    (es : List (Instant × Event)) :
    let slot := (Slot.fresh k.unknown).steps ops
    (slot.phase = .fetching ↔ 0 < slot.inFlight) ∧
    IsGreatest {n | ∃ t, t <:+ ops ∧ n = Slot.balance t} (slot.inFlight : ℤ) ∧
    (slot.inFlight = 0 → ∀ r canonical now later,
      (slot.settle r canonical now).inFlight = 0 ∧
      ((slot.settle r canonical now).steps later).inFlight = (slot.steps later).inFlight ∧
      ((slot.settle r canonical now).steps later).phase = (slot.steps later).phase) ∧
    ((run fresh es).monitor.closed = false →
      (((run fresh es).monitor.snapshot.slot k).phase = .fetching ↔ ∃ id, Unlanded es k id)) := by
  intro slot
  have hcoherent : slot.Coherent := Slot.fetching_iff_steps (Slot.coherent_fresh k.unknown) ops
  refine ⟨hcoherent, Slot.isGreatest_inFlight k.unknown ops, ?_, ?_⟩
  · intro hnone r canonical now later
    refine ⟨?_, Slot.steps_settle_of_unfetched hcoherent hnone r canonical now later⟩
    simp [Slot.settle, hnone]
  · intro hopen
    have hphase : ((run fresh es).monitor.snapshot.slot k).Coherent := by
      rw [monitor_run]
      exact Monitor.coherent_run _ k
    have hunlanded : (∃ id, Unlanded es k id) ↔ some k ∈ (run fresh es).fetches := by
      simp only [← unlanded_iff, List.mem_iff_getElem?]
    refine hphase.trans ?_
    rw [tallied_run es hopen k, List.count_pos_iff, hunlanded]

end Session

end Interlock

import Interlock.Proofs.Session.Requests

/-!
# One request at a time

A session is orderly if every confirmation is the command of a key and is resolved at once, and
every request is sent and delivered by its number (`Event.orderly`). Other steps are interleaved at
will. `Paired` ties `dialog.phase` to `requests`: it is `.sending` if and only if exactly one
request is outstanding, the one issued last. Every orderly step keeps it (`paired_step`), so it
holds in every orderly run (`paired_run`).
-/

namespace Interlock.Session

/-- The events of an orderly session. -/
def Event.orderly : Event → Bool
  | .press _ | .begin | .send _ _ | .finish _ | .confirm _ _ => false
  | _ => true

/-- The number of requests that are not `.finished`. -/
def outstanding (s : Session) : Nat := s.requests.countP (· ≠ .finished)

/-- Either the phase is not `.sending` and all requests are `.finished`, or it is, and only the last
request is not. -/
inductive Paired (s : Session) : Prop
  /-- No request is outstanding, and the dialog does not send. -/
  | rest (phase : s.console.dialog.phase ≠ .sending) (requests : ∀ r ∈ s.requests, r = .finished)
  /-- The dialog sends, and only the request that was issued last is outstanding. -/
  | flight (old : List KillRequest) (r : KillRequest) (phase : s.console.dialog.phase = .sending)
      (requests : s.requests = old ++ [r]) (finished : ∀ q ∈ old, q = .finished)
      (unfinished : r ≠ .finished)

theorem last_of_unfinished {old : List KillRequest} {r q : KillRequest} {id : Nat}
    (hold : ∀ q ∈ old, q = .finished) (h : (old ++ [r])[id]? = some q) (hq : q ≠ .finished) :
    id = old.length ∧ q = r := by
  rcases Nat.lt_trichotomy id old.length with hlt | heq | hgt
  · rw [List.getElem?_append_left hlt] at h
    exact absurd (hold q (List.mem_of_getElem? h)) hq
  · subst heq
    rw [List.getElem?_concat_length] at h
    exact ⟨rfl, (Option.some.inj h).symm⟩
  · rw [List.getElem?_eq_none (by simp; omega)] at h
    cases h

theorem finished_of_rest {rs : List KillRequest} {q : KillRequest} {id : Nat}
    (hrs : ∀ r ∈ rs, r = .finished) (h : rs[id]? = some q) : q = .finished :=
  hrs q (List.mem_of_getElem? h)

/-- `Paired` rests on the phase and the requests alone. -/
theorem Paired.congr {s s' : Session} (h : Paired s)
    (phase : s'.console.dialog.phase = s.console.dialog.phase)
    (requests : s'.requests = s.requests) : Paired s' := by
  cases h with
  | rest hphase finished =>
    exact .rest (by rw [phase]; exact hphase) (by rw [requests]; exact finished)
  | flight old r hphase split finished unfinished =>
    exact .flight old r (by rw [phase]; exact hphase) (by rw [requests]; exact split) finished
      unfinished

/-- An orderly step keeps `Paired`. -/
theorem paired_step {s : Session} (h : Paired s) (now : Instant) {e : Event}
    (he : e.orderly = true)
    (hanswers : ∀ (id : Nat) (o : Outcome), s.requests[id]? = some (.sent o) → o.IsAnswer) :
    Paired (s.step now e).2 := by
  cases move_step s now e with
  | quiet sends resolves dialog requests => exact h.congr (by rw [dialog]) requests
  | ignored resolves phase dialog requests => exact h.congr (by rw [dialog]) requests
  | key action event resolves console requests =>
    cases h with
    | rest phase finished =>
      refine .rest ?_ (by rw [requests]; exact finished)
      rw [console]
      exact Console.phase_press_ne_sending action phase
    | flight old r phase split finished unfinished =>
      refine .flight old r ?_ (by rw [requests]; exact split) finished unfinished
      rw [console, Console.press_of_sending action phase]
      exact phase
  | blocked resolves phase gate dialog requests =>
    cases h with
    | rest _ finished => exact .rest (by rw [dialog]; simp) (by rw [requests]; exact finished)
    | flight old r sending =>
      rw [phase] at sending
      cases sending
  | issued resolves phase gate dialog requests =>
    cases h with
    | rest _ finished => exact .flight _ .issued (by rw [dialog]) requests finished (by simp)
    -- while a request is in flight the dialog does not ask, so no other is issued
    | flight old r sending =>
      rw [phase] at sending
      cases sending
  | posted id kill lock waiting dialog requests =>
    cases h with
    | rest _ finished => cases finished_of_rest finished waiting
    | flight old r phase split finished unfinished =>
      rw [split] at waiting requests
      obtain ⟨rfl, -⟩ := last_of_unfinished finished waiting (by simp)
      refine .flight old (.sent (Dispatch.send kill lock).1) (by rw [dialog]; exact phase) ?_
        finished (by simp)
      rw [requests]
      simp
  | delivered id o waiting dialog requests =>
    have hanswer := hanswers id o waiting
    cases h with
    | rest _ finished => cases finished_of_rest finished waiting
    | flight old r phase split finished unfinished =>
      rw [split] at waiting requests
      obtain ⟨rfl, -⟩ := last_of_unfinished finished waiting (by simp)
      -- the dialog takes every answer, so the last request is finished with its outcome shown
      refine .rest ?_ ?_
      · rw [dialog, Dialog.complete_of_sending phase hanswer]
        exact Dialog.ofStatus_ne_sending hanswer
      · intro q hq
        rw [requests, List.set_append_right _ _ (Nat.le_refl _), Nat.sub_self] at hq
        rcases List.mem_append.1 hq with hq | hq
        · exact finished q hq
        · exact List.mem_singleton.1 hq
  -- the remaining moves belong to events that are not orderly
  | sent | finished | attempted => cases he

/-- The outcome of a `.sent` request is an answer. -/
theorem isAnswer_of_sent (es : List (Instant × Event)) {id : Nat} {o : Outcome}
    (h : (run fresh es).requests[id]? = some (.sent o)) : o.IsAnswer := by
  obtain ⟨before, now, kill, lock, -, -, rfl⟩ := (ledger_run es).outcome id o h
  exact Dispatch.isAnswer_send kill lock

/-- Every orderly run is `Paired`. -/
theorem paired_run (es : List (Instant × Event)) (hes : ∀ x ∈ es, x.2.orderly = true) :
    Paired (run fresh es) := by
  induction es using List.reverseRecOn with
  | nil => exact .rest (by simp [run, fresh, Console.fresh, Dialog.fresh]) (by simp [run, fresh])
  | append_singleton es e ih =>
    rw [run_concat]
    refine paired_step (ih fun x hx => hes x (by simp [hx])) e.1 (hes e (by simp)) ?_
    intro id o
    exact isAnswer_of_sent es

/-! ## What follows for attempts -/

/-- `Paired`: `outstanding` is 1 in `.sending` and 0 otherwise. -/
theorem Paired.outstanding {s : Session} (h : Paired s) :
    (s.console.dialog.phase = .sending ∧ s.outstanding = 1) ∨
    (s.console.dialog.phase ≠ .sending ∧ s.outstanding = 0) := by
  cases h with
  | rest phase finished =>
    refine .inr ⟨phase, ?_⟩
    unfold Session.outstanding
    rw [List.countP_eq_zero]
    intro r hr
    simp [finished r hr]
  | flight old r phase split finished unfinished =>
    refine .inl ⟨phase, ?_⟩
    have hold : old.countP (· ≠ .finished) = 0 := by
      rw [List.countP_eq_zero]
      intro q hq
      simp [finished q hq]
    unfold Session.outstanding
    rw [split, List.countP_append, hold]
    simp [unfinished]

/-- In `.sending`, a key changes nothing. -/
theorem step_key_of_sending {s : Session} (now : Instant) (action : KeyAction)
    (h : s.console.dialog.phase = .sending) :
    s.step now (.key action) = (.just (.pressed .none none none), s) := by
  show s.pressKey action = _
  unfold pressKey
  rw [Console.press_of_sending action h]

/-- A step that `Issues` takes `outstanding` from 0 to 1. -/
theorem outstanding_of_issues {s : Session} {e : Instant × Event} {id : Nat} (h : Paired s)
    (h' : Paired (s.step e.1 e.2).2) (issues : Issues s e id) :
    s.outstanding = 0 ∧ (s.step e.1 e.2).2.outstanding = 1 := by
  obtain ⟨-, hphase, -, hdialog, -⟩ := issues.passed
  constructor
  · rcases h.outstanding with ⟨hsending, -⟩ | ⟨-, hnone⟩
    · rw [hphase] at hsending
      cases hsending
    · exact hnone
  · rcases h'.outstanding with ⟨-, hone⟩ | ⟨hrest, -⟩
    · exact hone
    · rw [hdialog] at hrest
      exact absurd rfl hrest

/-- If a request is `.sent`, the phase is `.sending`. -/
theorem Paired.sending_of_sent {s : Session} (h : Paired s) {id : Nat} {o : Outcome}
    (ho : s.requests[id]? = some (.sent o)) : s.console.dialog.phase = .sending := by
  cases h with
  | rest phase finished => cases finished_of_rest finished ho
  | flight old r phase => exact phase

/-- `deliver` of a `.sent` request in `.sending` records its outcome. -/
theorem step_deliver {s : Session} (now : Instant) {id : Nat} {o : Outcome}
    (ho : s.requests[id]? = some (.sent o)) (hphase : s.console.dialog.phase = .sending)
    (hanswer : o.IsAnswer) :
    (s.step now (.deliver id)).1.answer = .recorded true ∧
    (s.step now (.deliver id)).2.console.dialog = ⟨.ofStatus o.status, some o⟩ ∧
    (s.step now (.deliver id)).2.requests[id]? = some .finished := by
  have hcomplete := Dialog.complete_of_sending hphase hanswer
  simp only [step, ho, record, Dispatch.finish, hcomplete, setDialog, setRequest, true_and]
  exact getElem?_set_of_known ho _

/-- In an orderly session every recorded outcome is accepted. -/
theorem recorded_of_paired {es : List (Instant × Event)} (h : Paired (run fresh es))
    (now : Instant) {e : Event} (he : e.orderly = true) {b : Bool}
    (hb : ((run fresh es).step now e).1.answer.recorded? = some b) : b = true := by
  cases move_step (run fresh es) now e with
  | delivered id o waiting dialog requests posts answer =>
    rw [answer, Dialog.complete_of_sending (h.sending_of_sent waiting)
      (isAnswer_of_sent es waiting)] at hb
    exact (Option.some.inj hb).symm
  | quiet _ _ _ _ _ _ recorded =>
    rw [recorded] at hb
    cases hb
  | key action event resolves console requests posts answer =>
    rcases answer with answer | answer <;> rw [answer] at hb <;> cases hb
  | ignored _ _ _ _ _ answer | blocked _ _ _ _ _ _ answer | issued _ _ _ _ _ _ answer =>
    rw [Answer.recorded?_of_confirmation? answer] at hb
    cases hb
  | posted id kill lock waiting dialog requests posts answer => rw [answer] at hb; cases hb
  | sent | finished | attempted => cases he

/-- The phase has been `.sending` since the request was issued that is now `.sent`. -/
theorem sending_since_issued {es before mid : List (Instant × Event)} {i : Instant × Event}
    {id : Nat} {o : Outcome} (hes : ∀ x ∈ es, x.2.orderly = true)
    (ho : (run fresh es).requests[id]? = some (.sent o)) (issues : Issues (run fresh before) i id)
    (hinitial : before ++ i :: mid <+: es) :
    (run fresh (before ++ i :: mid)).console.dialog.phase = .sending := by
  obtain ⟨rest, rfl⟩ := hinitial
  have hpaired := paired_run (before ++ i :: mid) fun x hx => hes x (List.mem_append_left _ hx)
  have hknown : (run fresh (before ++ i :: mid)).requests[id]? ≠ none := by
    rw [List.append_cons, run_append]
    apply known_run
    obtain ⟨-, -, -, -, hrequests⟩ := issues.passed
    rw [run_concat, hrequests, issues.2, List.getElem?_concat_length]
    simp
  cases hpaired with
  | flight old r phase => exact phase
  | rest phase finished =>
    -- a request that is finished here could not wait for its outcome at the end
    obtain ⟨r, hr⟩ := Option.ne_none_iff_exists'.1 hknown
    have hfinished := finished_of_rest finished hr
    rw [hfinished] at hr
    have hend := finished_run hr rest
    rw [← run_append, ho] at hend
    cases hend

theorem not_delivered_before {es before : List (Instant × Event)} {t : Instant} {id : Nat}
    {o o' : Outcome} (ho : (run fresh es).requests[id]? = some (.sent o))
    (hx : Occurs es before (t, .deliver id)) :
    (run fresh before).requests[id]? ≠ some (.sent o') := by
  intro hbefore
  obtain ⟨rest, rfl⟩ := hx
  have hfinished : ((run fresh before).step t (.deliver id)).2.requests[id]? = some .finished := by
    simp only [step, hbefore, setRequest]
    exact getElem?_set_of_known (r := .sent o') hbefore _
  have hend := finished_run hfinished rest
  rw [← run_concat fresh before (t, .deliver id), ← run_append, ho] at hend
  cases hend

/-- In an orderly session `outstanding` is 1 in `.sending` and 0 otherwise, a request is issued only
at 0, and each outcome is recorded once, by the attempt that issued it. In `.sending`, no key
changes anything. -/
theorem one_request_at_a_time (es : List (Instant × Event)) (now : Instant) (e : Event)
    (hes : ∀ x ∈ es, x.2.orderly = true) (he : e.orderly = true) :
    let s := run fresh es
    let effect := (s.step now e).1
    let s' := (s.step now e).2
    (s.console.dialog.phase = .sending ↔ s.outstanding = 1) ∧
    (s.console.dialog.phase ≠ .sending ↔ s.outstanding = 0) ∧
    (∀ id, Issues s (now, e) id → s.outstanding = 0 ∧ s'.outstanding = 1) ∧
    (∀ b, effect.answer.recorded? = some b → b = true) ∧
    (∀ id o, e = .deliver id → s.requests[id]? = some (.sent o) →
      effect.answer = .recorded true ∧
      s'.console.dialog = ⟨.ofStatus o.status, some o⟩ ∧ o.IsAnswer ∧
      s'.requests[id]? = some .finished ∧
      (∃ before t kill lock, Occurs es before (t, .post id kill lock) ∧
        (run fresh before).sends (.post id kill lock) = some id ∧
        o = (Dispatch.send kill lock).1) ∧
      (∀ before i mid, Issues (run fresh before) i id → before ++ i :: mid <+: es →
        (run fresh (before ++ i :: mid)).console.dialog.phase = .sending) ∧
      ∀ before t, Occurs es before (t, .deliver id) →
        ∀ o', (run fresh before).requests[id]? ≠ some (.sent o')) ∧
    (s.console.dialog.phase = .sending → ∀ action,
      s.step now (.key action) = (.just (.pressed .none none none), s)) := by
  intro s effect s'
  have hpaired : Paired s := paired_run es hes
  have hpaired' : Paired s' := paired_step hpaired now he fun _ _ => isAnswer_of_sent es
  refine ⟨?_, ?_, ?_, ?_, ?_, ?_⟩
  · rcases hpaired.outstanding with ⟨hphase, hone⟩ | ⟨hphase, hnone⟩
    · simp [hphase, hone]
    · simp [hphase, hnone]
  · rcases hpaired.outstanding with ⟨hphase, hone⟩ | ⟨hphase, hnone⟩
    · simp [hphase, hone]
    · simp [hphase, hnone]
  · intro id
    exact outstanding_of_issues hpaired hpaired'
  · intro b
    exact recorded_of_paired hpaired now he
  · rintro id o rfl ho
    have hanswer := isAnswer_of_sent es ho
    obtain ⟨hrecorded, hdialog, hfinished⟩ :=
      step_deliver now ho (hpaired.sending_of_sent ho) hanswer
    refine ⟨hrecorded, hdialog, hanswer, hfinished, ?_, ?_, ?_⟩
    · exact (ledger_run es).outcome id o ho
    · intro before i mid
      exact sending_since_issued hes ho
    · intro before t hx o'
      exact not_delivered_before ho hx
  · intro hphase action
    exact step_key_of_sending now action hphase

/-- A request is issued, sent and answered, and the dialog shows its success. -/
theorem one_request_at_a_time_success :
    let es : List (Instant × Event) := [
      (⟨0⟩, .refresh .executor (.answer 200 (some (.object [])))),
      (⟨1⟩, .key .openKill),
      (⟨2⟩, .key .confirm),
      (⟨3⟩, .post 0 (.answered ⟨200, ""⟩) (.failed "connection failed"))]
    (∀ x ∈ es, x.2.orderly = true) ∧ (run fresh es).outstanding = 1 ∧
      ((run fresh es).step ⟨4⟩ (.deliver 0)).2.console.dialog =
        ⟨.succeeded, some ⟨.success, some 200, "OK (200)"⟩⟩ := by
  intro es
  have hes : ∀ x ∈ es, x.2.orderly = true := by decide
  have h := one_request_at_a_time es ⟨4⟩ (.deliver 0) hes rfl
  have hsent : (run fresh es).requests[0]? = some (.sent ⟨.success, some 200, "OK (200)"⟩) := by
    decide
  obtain ⟨-, hdialog, -⟩ := h.2.2.2.2.1 0 _ rfl hsent
  have hphase : (run fresh es).console.dialog.phase = .sending := by decide
  exact ⟨hes, h.1.1 hphase, hdialog⟩

end Interlock.Session

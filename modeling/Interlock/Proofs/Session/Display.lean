import Interlock.Proofs.Session.Fetches
import Interlock.Proofs.Session.Opening

/-!
# The console misses no publication

`monitor.version` counts the publications, and `seen` those that the console knows of. A step
`Publishes` if a fetch begins or lands in it while the monitor is open; no other step changes the
count or the snapshot (`publication_step`). So `seen` is behind `version` if and only if a
publication is `Unseen` (`seen_ne_version_iff`), and otherwise the console shows what is published
(`Follows`). To ask the gate neither tells the console of a publication nor keeps one from it.
-/

namespace Interlock

/-- Every event but `close` adds one to the `version` of an open monitor. -/
theorem Monitor.version_run_of_open {m : Monitor} (h : m.closed = false) {es : List Event}
    (hes : ∀ e ∈ es, e.isClose = false) : (m.run es).version = m.version + es.length := by
  induction es generalizing m with
  | nil => rfl
  | cons e es ih =>
    obtain ⟨he, hes⟩ := List.forall_mem_cons.1 hes
    have hopen : (m.step e).closed = false := by rw [closed_step, h, he, Bool.false_or]
    have hversion : (m.step e).version = m.version + 1 := by rw [version_step, if_pos ⟨h, he⟩]
    show ((m.step e).run es).version = _
    rw [ih hopen hes, hversion, List.length_cons]
    omega

namespace Session

/-! ## Publications -/

/-- A fetch begins or lands in the step, while the monitor is open. -/
def Publishes (s : Session) (e : Event) : Prop :=
  s.monitor.closed = false ∧
    match e with
    | .refresh _ _ => True
    | .refreshAll _ => True
    | .start _ => True
    | .settle id _ => ∃ k, s.fetches[id]? = some (some k)
    | _ => False

theorem publishes_iff {s : Session} (h : s.monitor.closed = false) (now : Instant) {e : Event}
    (he : e ≠ .close) : s.Publishes e ↔ s.monitorEvents now e ≠ [] := by
  unfold Publishes
  cases e with
  | close => exact absurd rfl he
  | settle id r =>
    simp only [monitorEvents]
    rcases s.fetches[id]? with _ | _ | k <;> simp [h]
  | refreshAll results => simp [h, monitorEvents, Monitor.fetchAll, Source.all]
  | _ => simp [h, monitorEvents]

/-- A step `Publishes` and raises `version`, or leaves `version` and `snapshot` as they are. -/
theorem publication_step (s : Session) (now : Instant) (e : Event) :
    s.Publishes e ∧ s.monitor.version < (s.step now e).2.monitor.version ∨
      ¬ s.Publishes e ∧ (s.step now e).2.monitor.version = s.monitor.version ∧
        (s.step now e).2.monitor.snapshot = s.monitor.snapshot := by
  rw [monitor_step]
  cases hclosed : s.monitor.closed with
  | true =>
    -- a closed monitor takes no fetch
    rw [Monitor.run_of_closed hclosed]
    refine .inr ⟨fun h => ?_, rfl, rfl⟩
    rw [h.1] at hclosed
    cases hclosed
  | false =>
    by_cases he : e = .close
    · subst he
      exact .inr ⟨fun h => h.2, rfl, rfl⟩
    rw [publishes_iff hclosed now he]
    by_cases hnone : s.monitorEvents now e = []
    · rw [hnone]
      exact .inr ⟨fun h => h rfl, rfl, rfl⟩
    · rw [Monitor.version_run_of_open hclosed (s.isClose_monitorEvents now he)]
      have hsome := List.length_pos_iff.2 hnone
      exact .inl ⟨hnone, by omega⟩

/-- There is a step in `es` that `Publishes`, and no `sync` after it. -/
def Unseen (es : List (Instant × Event)) : Prop :=
  ∃ before x, Occurs es before x ∧ (run fresh before).Publishes x.2 ∧
    EverSince es before fun _ y => y.2 ≠ .sync

/-! ## What the console has seen -/

/-- `seen ≤ version`, the console shows the published snapshot if they are equal, and its verdict is
the one on what it shows. -/
structure Follows (s : Session) : Prop where
  seen : s.seen ≤ s.monitor.version
  snapshot : s.seen = s.monitor.version → s.console.snapshot = s.monitor.snapshot
  verdict : s.console.verdict = Verdict.evaluate s.console.snapshot

/-- `sync` shows what is published, and answers whether `seen ≠ version`. -/
theorem sync_step {s : Session} (h : s.Follows) (now : Instant) :
    (s.step now .sync).1 = .just (.synced (s.seen != s.monitor.version)) ∧
      (s.step now .sync).2 =
        { s with
          console := s.console.display s.monitor.snapshot
          seen := s.monitor.version } := by
  simp only [step]
  split
  · next hseen =>
    have hdisplay : s.console.display s.monitor.snapshot = s.console := by
      rw [Console.display, ← h.snapshot hseen, ← h.verdict]
    rw [hdisplay, ← hseen]
    simp
  · next hseen =>
    have hbehind : (s.seen != s.monitor.version) = true := by simpa using hseen
    rw [hbehind]
    exact ⟨rfl, rfl⟩

theorem Follows.step {s : Session} (h : s.Follows) (now : Instant) (e : Event) :
    (s.step now e).2.Follows := by
  by_cases he : e = .sync
  · subst he
    rw [(sync_step h now).2]
    exact ⟨Nat.le_refl _, fun _ => rfl, rfl⟩
  obtain ⟨hseen, hsnapshot, hverdict⟩ := s.shown_step_of_ne_sync now he
  have hverdict' : (s.step now e).2.console.verdict =
      Verdict.evaluate (s.step now e).2.console.snapshot := by
    rw [hverdict, hsnapshot, h.verdict]
  have hbehind := h.seen
  rcases s.publication_step now e with ⟨-, hversion⟩ | ⟨-, hversion, hpublished⟩
  · -- the console has not seen this publication
    refine ⟨by omega, fun hall => ?_, hverdict'⟩
    omega
  · refine ⟨by omega, fun hall => ?_, hverdict'⟩
    rw [hsnapshot, hpublished]
    exact h.snapshot (by omega)

/-- The console `Follows` in every run. -/
theorem follows_run (es : List (Instant × Event)) : (run fresh es).Follows := by
  induction es using List.reverseRecOn with
  | nil => exact ⟨Nat.le_refl 0, fun _ => rfl, rfl⟩
  | append_singleton es x ih =>
    rw [run_concat]
    exact ih.step x.1 x.2

/-- `seen ≠ version` if and only if a publication is `Unseen`. -/
theorem seen_ne_version_iff (es : List (Instant × Event)) :
    (run fresh es).seen ≠ (run fresh es).monitor.version ↔ Unseen es := by
  induction es using List.reverseRecOn with
  | nil =>
    constructor
    · intro h
      exact absurd rfl h
    · rintro ⟨before, x, hx, -⟩
      exact absurd hx (not_occurs_nil before x)
  | append_singleton es x ih =>
    have hfollows := follows_run es
    -- the last step publishes, or it leaves the console behind if it is no synchronisation
    have hconcat : Unseen (es ++ [x]) ↔
        (run fresh es).Publishes x.2 ∨ Unseen es ∧ x.2 ≠ .sync := since_concat
    rw [hconcat, ← ih, run_concat]
    obtain ⟨now, e⟩ := x
    by_cases he : e = .sync
    · subst he
      rw [(sync_step hfollows now).2]
      simp [Publishes]
    · have hbehind := hfollows.seen
      obtain ⟨hseen, -⟩ := (run fresh es).shown_step_of_ne_sync now he
      rcases (run fresh es).publication_step now e with
        ⟨hpublishes, hversion⟩ | ⟨hpublishes, hversion, -⟩
      · simp only [hpublishes, true_or, iff_true]
        omega
      · simp only [hpublishes, he, hseen, hversion, false_or, ne_eq, not_false_eq_true, and_true]

/-! ## Steps that are no fetch -/

/-- The keys, and the steps of the dialog and its dispatcher. -/
def Event.isAction : Event → Bool
  | .key _ => true
  | .press _ => true
  | .begin => true
  | .post _ _ _ => true
  | .deliver _ => true
  | .send _ _ => true
  | .finish _ => true
  | .confirm _ _ => true
  | .request _ => true
  | .dropRequests => true
  | _ => false

theorem AsksGate.isAction {s : Session} {e : Event} (h : s.AsksGate e) : e.isAction = true := by
  rcases h with (rfl | ⟨action, rfl, -⟩) | ⟨kill, lock, rfl⟩ <;> rfl

/-- An `isAction` step changes neither the monitor, nor `seen`, nor what the console shows. -/
theorem action_step (s : Session) (now : Instant) {e : Event} (h : e.isAction = true) :
    (s.step now e).2.monitor = s.monitor ∧ (s.step now e).2.seen = s.seen ∧
      (s.step now e).2.console.snapshot = s.console.snapshot ∧
      (s.step now e).2.console.verdict = s.console.verdict := by
  have hnone : s.monitorEvents now e = [] := by
    cases e with
    | refresh | refreshAll | start | settle | close | sync => cases h
    | _ => rfl
  have hsync : e ≠ .sync := by
    rintro rfl
    cases h
  refine ⟨?_, s.shown_step_of_ne_sync now hsync⟩
  rw [monitor_step, hnone]
  rfl

theorem AsksGate.answer_ne {s : Session} {e : Event} (h : s.AsksGate e) (now : Instant) (b : Bool) :
    (s.step now e).1.answer ≠ .synced b := by
  intro hsynced
  rcases h with hresolves | ⟨kill, lock, rfl⟩
  · obtain ⟨c, hc, -⟩ : ∃ c, (s.step now e).1.answer.confirmation? = some c ∧ _ :=
      confirmation_of_resolves hresolves
    rw [hsynced] at hc
    cases hc
  · cases hsynced

/-- The answer of `sync` rests on `seen` and the monitor alone. -/
theorem sync_answer_congr {s s' : Session} (hseen : s.seen = s'.seen)
    (hmonitor : s.monitor = s'.monitor) (now : Instant) :
    (s.step now .sync).1 = (s'.step now .sync).1 := by
  simp only [step, hseen, hmonitor]
  split <;> rfl

/-! ## The view -/

/-- After every run, `sync` shows the published snapshot, and answers `true` if and only if a
publication is `Unseen`. The verdict is always the one on the snapshot shown. `AsksGate` steps
change none of this. -/
theorem view_misses_nothing (es : List (Instant × Event)) (now : Instant) :
    let s := run fresh es
    let synced := s.step now .sync
    (synced.2.console.snapshot = synced.2.monitor.snapshot ∧ synced.2.monitor = s.monitor ∧
      (Unseen es → synced.1 = .just (.synced true)) ∧
      (¬ Unseen es → synced = (.just (.synced false), s))) ∧
    s.console.verdict = Verdict.evaluate s.console.snapshot ∧
    (∀ e, s.AsksGate e → (∀ b, (s.step now e).1.answer ≠ .synced b) ∧
      ∀ t, ((s.step now e).2.step t .sync).1 = (s.step t .sync).1) ∧
    ∀ e, e.isAction = true →
      (s.step now e).2.monitor.snapshot = s.monitor.snapshot ∧
      (s.step now e).2.console.snapshot = s.console.snapshot ∧
      (s.step now e).2.console.verdict = s.console.verdict := by
  intro s synced
  have hfollows : s.Follows := follows_run es
  obtain ⟨hanswer, hstate⟩ := sync_step hfollows now
  have hunseen : s.seen ≠ s.monitor.version ↔ Unseen es := seen_ne_version_iff es
  refine ⟨⟨?_, ?_, ?_, ?_⟩, hfollows.verdict, ?_, ?_⟩
  · show (s.step now .sync).2.console.snapshot = (s.step now .sync).2.monitor.snapshot
    rw [hstate]
    rfl
  · show (s.step now .sync).2.monitor = s.monitor
    rw [hstate]
  · intro hnew
    have hbehind : (s.seen != s.monitor.version) = true := bne_iff_ne.2 (hunseen.2 hnew)
    show (s.step now .sync).1 = _
    rw [hanswer, hbehind]
  · intro hold
    have hlevel : s.seen = s.monitor.version := by
      by_contra hbehind
      exact hold (hunseen.1 hbehind)
    show s.step now .sync = _
    simp only [step, hlevel, if_true]
  · intro e hasks
    obtain ⟨hmonitor, hseen, -⟩ := s.action_step now hasks.isAction
    exact ⟨hasks.answer_ne now, fun t => sync_answer_congr hseen hmonitor t⟩
  · intro e haction
    obtain ⟨hmonitor, -, hshown⟩ := s.action_step now haction
    rw [hmonitor]
    exact ⟨rfl, hshown⟩

end Session

end Interlock

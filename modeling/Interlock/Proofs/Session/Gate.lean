import Interlock.Proofs.Session.Requests
import Mathlib.Tactic.ByContra

/-!
# Every post has passed the gate

`gateLocked` is read from the published snapshot when a confirmation is resolved. What the console
shows, and what the gate was when the prompt opened, plays no part. A post goes out only for a
request that such a reading has let through, and for each request only once (`posts_passed_gate`).
-/

namespace Interlock.Session

variable {s : Session} {now : Instant} {e : Event}

/-- A resolved confirmation is decided by `dialog.phase` and `gateLocked`. -/
theorem confirmation_of_resolves (h : s.Resolves e) :
    ∃ c, (s.step now e).1.answer.confirmation? = some c ∧
      (c = .send ↔ s.console.dialog.phase = .confirming ∧ s.gateLocked = false) ∧
      ((∃ o, c = .blocked o) ↔ s.console.dialog.phase = .confirming ∧ s.gateLocked = true) ∧
      (c = .ignored ↔ s.console.dialog.phase ≠ .confirming) ∧
      (c = .ignored → (s.step now e).2.console.dialog = s.console.dialog) := by
  cases move_step s now e with
  | ignored resolves phase dialog requests posts answer =>
    exact ⟨.ignored, answer, by simp [phase], by simp [phase], by simp [phase], fun _ => dialog⟩
  | blocked resolves phase gate dialog requests posts answer =>
    exact ⟨_, answer, by simp [gate], by simp [phase, gate], by simp [phase], by simp⟩
  | issued resolves phase gate dialog requests posts answer =>
    exact ⟨.send, answer, by simp [phase, gate], by simp [gate], by simp [phase], by simp⟩
  | quiet _ resolves | key _ _ resolves => exact absurd h resolves
  | posted | delivered | sent | finished | attempted =>
    exact absurd h (not_resolves (by simp) (by simp))

/-- A `confirm` is decided by `dialog.phase` and `gateLocked`. -/
theorem outcome_of_confirm (kill lock : Posted) :
    let effect := (s.step now (.confirm kill lock)).1
    (effect.posts ≠ [] ↔ s.console.dialog.phase = .confirming ∧ s.gateLocked = false) ∧
    (effect.answer = .outcome (some (.ofError .blocked)) ↔
      s.console.dialog.phase = .confirming ∧ s.gateLocked = true) ∧
    (effect.answer = .outcome none ↔ s.console.dialog.phase ≠ .confirming) ∧
    (effect.answer = .outcome none →
      (s.step now (.confirm kill lock)).2.console.dialog = s.console.dialog) := by
  intro effect
  have hposts : effect.posts =
      (Dispatch.confirm s.gateLocked kill lock s.console.dialog).posts := rfl
  have hanswer : effect.answer =
      .outcome (Dispatch.confirm s.gateLocked kill lock s.console.dialog).outcome := rfl
  have hdialog : (s.step now (.confirm kill lock)).2.console.dialog =
      (Dispatch.confirm s.gateLocked kill lock s.console.dialog).dialog := rfl
  rw [hposts, hanswer, hdialog]
  by_cases hphase : s.console.dialog.phase = .confirming
  · cases hgate : s.gateLocked with
    | true =>
      rw [Dispatch.confirm_of_locked kill lock hphase]
      simp [hphase]
    | false =>
      have hposts := Dispatch.posts_send_ne_nil kill lock
      have hblocked := (Dispatch.isAnswer_send kill lock).ne_blocked
      rw [Dispatch.confirm_of_unlocked kill lock hphase]
      simp [hphase, hposts, hblocked]
  · rw [Dispatch.confirm_of_ne _ kill lock hphase]
    simp [hphase]

/-- A step posts only if it is a `confirm` or `sends` a request. -/
theorem sends_of_posts (h : (s.step now e).1.posts ≠ []) :
    (∃ kill lock, e = .confirm kill lock) ∨ ∃ id, s.sends e = some id := by
  cases move_step s now e with
  | posted id kill lock waiting => exact .inr ⟨id, if_pos waiting⟩
  | sent id kill lock last waiting =>
    subst last
    exact .inr ⟨_, if_pos waiting⟩
  | attempted kill lock => exact .inl ⟨kill, lock, rfl⟩
  | quiet _ _ _ _ posts | key _ _ _ _ _ posts | ignored _ _ _ _ posts | blocked _ _ _ _ _ posts
  | issued _ _ _ _ _ posts | delivered _ _ _ _ _ posts | finished _ _ _ posts =>
    exact absurd posts h

/-- What a step `sends` was issued by an earlier step, and no earlier step has sent it. -/
theorem issued_before_sent {es : List (Instant × Event)} {id : Nat}
    (h : (run fresh es).sends e = some id) :
    (∃ before i, Occurs es before i ∧ Issues (run fresh before) i id) ∧
    ∀ before x, Occurs es before x → (run fresh before).sends x.2 ≠ some id := by
  have hledger := ledger_run es
  have hwaiting := waiting_of_sends h
  refine ⟨hledger.origin id _ hwaiting, ?_⟩
  intro before x hx hsends
  exact (hledger.once before x id hx hsends).2 hwaiting

/-- The step resolves a confirmation, or is a `confirm`. -/
def AsksGate (s : Session) (e : Event) : Prop :=
  s.Resolves e ∨ ∃ kill lock, e = .confirm kill lock

/-- A post goes back to a step that `AsksGate`, with the gate open. -/
theorem open_gate_of_posts {es : List (Instant × Event)}
    (h : ((run fresh es).step now e).1.posts ≠ []) :
    ∃ before x, Occurs (es ++ [(now, e)]) before x ∧ (run fresh before).AsksGate x.2 ∧
      (run fresh before).gateLocked = false := by
  rcases sends_of_posts h with ⟨kill, lock, rfl⟩ | ⟨id, hsends⟩
  · have hgate := ((outcome_of_confirm kill lock).1.1 h).2
    exact ⟨es, _, occurs_concat.2 (.inr ⟨rfl, rfl⟩), .inr ⟨kill, lock, rfl⟩, hgate⟩
  · obtain ⟨⟨before, i, hi, issues⟩, -⟩ := issued_before_sent hsends
    obtain ⟨resolves, -, hgate, -⟩ := issues.passed
    exact ⟨before, i, occurs_concat.2 (.inl hi), .inl resolves, hgate⟩

/-- At every step, a confirmation is decided by the phase and `gateLocked` of that moment, and a
post goes out only in a `confirm` or for one issued request, once. So every post goes back to an
open gate. -/
theorem posts_passed_gate (es : List (Instant × Event)) (now : Instant) (e : Event) :
    let s := run fresh es
    let effect := (s.step now e).1
    let dialog := s.console.dialog
    let locked (s : Session) := (Verdict.evaluate s.monitor.snapshot).automationLocked
    (s.Resolves e → ∃ c, effect.answer.confirmation? = some c ∧
      (c = .send ↔ dialog.phase = .confirming ∧ locked s = false) ∧
      ((∃ o, c = .blocked o) ↔ dialog.phase = .confirming ∧ locked s = true) ∧
      (c = .ignored ↔ dialog.phase ≠ .confirming) ∧
      (c = .ignored → (s.step now e).2.console.dialog = dialog)) ∧
    (∀ kill lock, e = .confirm kill lock →
      (effect.posts ≠ [] ↔ dialog.phase = .confirming ∧ locked s = false) ∧
      (effect.answer = .outcome (some (.ofError .blocked)) ↔
        dialog.phase = .confirming ∧ locked s = true) ∧
      (effect.answer = .outcome none ↔ dialog.phase ≠ .confirming) ∧
      (effect.answer = .outcome none → (s.step now e).2.console.dialog = dialog)) ∧
    (effect.posts ≠ [] → (∃ kill lock, e = .confirm kill lock) ∨
      ∃ id, s.sends e = some id ∧
        (∃ before i, Occurs es before i ∧ Issues (run fresh before) i id ∧
          (run fresh before).console.dialog.phase = .confirming ∧
          locked (run fresh before) = false) ∧
        ∀ before x, Occurs es before x → (run fresh before).sends x.2 ≠ some id) ∧
    ((∀ before x, Occurs (es ++ [(now, e)]) before x → (run fresh before).AsksGate x.2 →
      locked (run fresh before) = true) → effect.posts = []) := by
  intro s effect dialog locked
  refine ⟨confirmation_of_resolves, ?_, ?_, ?_⟩
  · rintro kill lock rfl
    exact outcome_of_confirm kill lock
  · intro hposts
    rcases sends_of_posts hposts with hconfirm | ⟨id, hsends⟩
    · exact .inl hconfirm
    · obtain ⟨⟨before, i, hi, issues⟩, honce⟩ := issued_before_sent hsends
      obtain ⟨-, hphase, hgate, -⟩ := issues.passed
      exact .inr ⟨id, hsends, ⟨before, i, hi, issues, hphase, hgate⟩, honce⟩
  · intro hlocked
    by_contra hposts
    obtain ⟨before, x, hx, hasks, hopen⟩ := open_gate_of_posts hposts
    have hclosed : (run fresh before).gateLocked = true := hlocked before x hx hasks
    rw [hopen] at hclosed
    cases hclosed

-- The gate was open when the prompt was opened, and is closed when it is confirmed.
example :
    let s := run fresh [
      (⟨0⟩, .refresh .executor (.answer 200 (some (.object [])))),
      (⟨1⟩, .key .openKill),
      (⟨2⟩, .refresh .executor (.unreachable "request timed out"))]
    (s.step ⟨3⟩ (.key .confirm)).1 =
      ⟨.pressed .confirmKill none (some (.blocked (.ofError .blocked))), [], [.source .executor]⟩ :=
  rfl

end Interlock.Session

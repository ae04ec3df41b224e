import Interlock.Proofs.Session.Move
import Mathlib.Data.List.Induction

/-!
# The life of a request

A request is `.issued` when a step answers a confirmation with `.send`, `.sent` by at most one later
step, and `.finished` when its outcome has been recorded. `Life` says what one step can do to one
request, and `ledger_run` what follows for a run from `fresh`:

* every request was issued by a step of the run;
* no request is sent twice;
* the outcome of a `.sent` request is that of the step that sent it.
-/

namespace Interlock.Session

/-! ## Runs, one step at a time -/

theorem run_concat (s : Session) (es : List (Instant × Event)) (e : Instant × Event) :
    s.run (es ++ [e]) = ((s.run es).step e.1 e.2).2 := by
  unfold run
  rw [List.foldl_append]
  rfl

theorem run_append (s : Session) (es es' : List (Instant × Event)) :
    s.run (es ++ es') = (s.run es).run es' := by
  unfold run
  rw [List.foldl_append]

/-- The step `e` is taken in the run `es`, after `before`. -/
def Occurs (es before : List (Instant × Event)) (e : Instant × Event) : Prop := before ++ [e] <+: es

/-- `Occurs` in a run that is longer by one. -/
theorem occurs_concat {es before : List (Instant × Event)} {e x : Instant × Event} :
    Occurs (es ++ [x]) before e ↔ Occurs es before e ∨ before = es ∧ e = x := by
  unfold Occurs
  rw [List.prefix_concat_iff]
  constructor
  · rintro (h | h)
    · right
      have hb := List.append_inj' h rfl
      exact ⟨hb.1, List.singleton_inj.1 hb.2⟩
    · exact .inl h
  · rintro (h | ⟨rfl, rfl⟩)
    · exact .inr h
    · exact .inl rfl

theorem not_occurs_nil (before : List (Instant × Event)) (e : Instant × Event) :
    ¬ Occurs [] before e := by
  intro h
  have hlength := h.length_le
  simp at hlength

/-! ## What one step does to one request -/

/-- In the state `s`, the step `e` answers `.send`, and the request gets the number `id`. -/
def Issues (s : Session) (e : Instant × Event) (id : Nat) : Prop :=
  (s.step e.1 e.2).1.answer.confirmation? = some .send ∧ id = s.requests.length

/-- A step `Issues` only in `.confirming` with the gate open. Then the phase is `.sending`, and the
request is the last one. -/
theorem Issues.passed {s : Session} {e : Instant × Event} {id : Nat} (h : Issues s e id) :
    s.Resolves e.2 ∧ s.console.dialog.phase = .confirming ∧ s.gateLocked = false ∧
      (s.step e.1 e.2).2.console.dialog = ⟨.sending, some .pending⟩ ∧
      (s.step e.1 e.2).2.requests = s.requests ++ [.issued] := by
  obtain ⟨now, e⟩ := e
  obtain ⟨h, -⟩ := h
  cases move_step s now e with
  | issued resolves phase gate dialog requests =>
    exact ⟨resolves, phase, gate, dialog, requests⟩
  | key action event resolves console requests posts answer =>
    rcases answer with answer | answer <;> rw [answer] at h <;> cases h
  -- no other move answers a confirmation with `send`
  | quiet _ _ _ _ _ answer | ignored _ _ _ _ _ answer | blocked _ _ _ _ _ _ answer
  | posted _ _ _ _ _ _ _ answer | delivered _ _ _ _ _ _ answer | sent _ _ _ _ _ _ _ _ answer
  | finished _ _ _ _ answer | attempted _ _ _ _ _ answer =>
    rw [answer] at h
    cases h

theorem sends_of_resolves {s : Session} {e : Event} (h : s.Resolves e) : s.sends e = none := by
  rcases h with rfl | ⟨action, rfl, _⟩ <;> rfl

/-- What a step `sends` is `.issued`. -/
theorem waiting_of_sends {s : Session} {e : Event} {id : Nat} (h : s.sends e = some id) :
    s.requests[id]? = some .issued := by
  unfold sends at h
  split at h
  · split at h
    · cases h
      assumption
    · cases h
  · split at h
    · cases h
      assumption
    · cases h
  · cases h

/-- How a step can change `requests[id]?`. -/
inductive Life (s : Session) (e : Instant × Event) (id : Nat) :
    Option KillRequest → Option KillRequest → Prop
  /-- Not at all. -/
  | same (r : Option KillRequest) (sends : s.sends e.2 ≠ some id) : Life s e id r r
  /-- It is issued. -/
  | issue (issues : Issues s e id) : Life s e id none (some .issued)
  /-- It is sent. -/
  | post (kill lock : Posted) (event : e.2 = .post id kill lock) :
      Life s e id (some .issued) (some (.sent (Dispatch.send kill lock).1))
  /-- It is sent, and its outcome is recorded at once. -/
  | send (kill lock : Posted) (event : e.2 = .send kill lock) :
      Life s e id (some .issued) (some .finished)
  /-- Its outcome is recorded. -/
  | deliver (o : Outcome) (event : e.2 = .deliver id) :
      Life s e id (some (.sent o)) (some .finished)

theorem getElem?_set_of_known {rs : List KillRequest} {id : Nat} {r : KillRequest}
    (h : rs[id]? = some r) (r' : KillRequest) : (rs.set id r')[id]? = some r' := by
  obtain ⟨hlt, -⟩ := List.getElem?_eq_some_iff.1 h
  exact List.getElem?_set_self hlt

/-- Every step is a case of `Life`, for every `id`. -/
theorem life_step (s : Session) (e : Instant × Event) (id : Nat) :
    Life s e id s.requests[id]? (s.step e.1 e.2).2.requests[id]? := by
  obtain ⟨now, e⟩ := e
  cases move_step s now e with
  | quiet sends resolves dialog requests =>
    rw [requests]
    exact .same _ (by rw [sends]; simp)
  | key action event resolves console requests =>
    rw [requests]
    rcases event with rfl | rfl <;> exact .same _ (by simp [sends])
  | ignored resolves phase dialog requests =>
    rw [requests]
    exact .same _ (by rw [sends_of_resolves resolves]; simp)
  | blocked resolves phase gate dialog requests =>
    rw [requests]
    exact .same _ (by rw [sends_of_resolves resolves]; simp)
  | issued resolves phase gate dialog requests posts answer =>
    rw [requests]
    by_cases hid : id = s.requests.length
    · -- the new request takes the first number that is free
      have hnew : (s.requests ++ [KillRequest.issued])[id]? = some .issued := by
        rw [hid, List.getElem?_concat_length]
      have hold : s.requests[id]? = none := by
        rw [hid]
        exact List.getElem?_eq_none (Nat.le_refl _)
      rw [hnew, hold]
      exact .issue ⟨answer, hid⟩
    · -- another number names what it named before
      have hsame : (s.requests ++ [KillRequest.issued])[id]? = s.requests[id]? := by
        rw [List.getElem?_append]
        split
        · rfl
        · rw [List.getElem?_eq_none (by simp; omega), List.getElem?_eq_none (by omega)]
      rw [hsame]
      exact .same _ (by rw [sends_of_resolves resolves]; simp)
  | posted i kill lock waiting dialog requests =>
    rw [requests]
    by_cases hid : i = id
    · subst hid
      rw [waiting, getElem?_set_of_known waiting]
      exact .post kill lock rfl
    · rw [List.getElem?_set_ne hid]
      exact .same _ (by simp [sends, waiting, hid])
  | delivered i o waiting dialog requests =>
    rw [requests]
    by_cases hid : i = id
    · subst hid
      rw [waiting, getElem?_set_of_known waiting]
      exact .deliver o rfl
    · rw [List.getElem?_set_ne hid]
      exact .same _ (by simp [sends])
  | sent i kill lock last waiting dialog requests =>
    rw [requests]
    by_cases hid : i = id
    · subst hid
      rw [waiting, getElem?_set_of_known waiting]
      exact .send kill lock rfl
    · rw [List.getElem?_set_ne hid]
      exact .same _ (by simp [sends, ← last, waiting, hid])
  | finished o dialog requests =>
    rw [requests]
    exact .same _ (by simp [sends])
  | attempted kill lock dialog requests =>
    rw [requests]
    exact .same _ (by simp [sends])

/-- `.finished` is final. -/
theorem finished_run {s : Session} {id : Nat} (h : s.requests[id]? = some .finished)
    (es : List (Instant × Event)) : (s.run es).requests[id]? = some .finished := by
  induction es using List.reverseRecOn with
  | nil => exact h
  | append_singleton es e ih =>
    have hlife := life_step (s.run es) e id
    rw [run_concat]
    rw [ih] at hlife
    generalize ((s.run es).step e.1 e.2).2.requests[id]? = r at hlife ⊢
    cases hlife with
    | same => rfl

/-- A request that was issued stays in `requests`. -/
theorem known_run {s : Session} {id : Nat} (h : s.requests[id]? ≠ none)
    (es : List (Instant × Event)) : (s.run es).requests[id]? ≠ none := by
  induction es using List.reverseRecOn with
  | nil => exact h
  | append_singleton es e ih =>
    have hlife := life_step (s.run es) e id
    rw [run_concat]
    generalize (s.run es).requests[id]? = r at hlife ih
    generalize ((s.run es).step e.1 e.2).2.requests[id]? = r' at hlife ⊢
    cases hlife with
    | same => exact ih
    -- every other way leaves a known request behind
    | issue | post | send | deliver => simp

/-! ## What holds along a run -/

/-- What the run `es` from `fresh` says about the requests of its last state `s`. -/
structure Ledger (es : List (Instant × Event)) (s : Session) : Prop where
  /-- Every request was issued by a step of the run. -/
  origin : ∀ id r, s.requests[id]? = some r →
    ∃ before e, Occurs es before e ∧ Issues (run fresh before) e id
  /-- A request that was sent is not waiting to be sent again. -/
  once : ∀ before e id, Occurs es before e → (run fresh before).sends e.2 = some id →
    s.requests[id]? ≠ none ∧ s.requests[id]? ≠ some .issued
  /-- An outcome that waits to be recorded is that of the request to which it is attributed. -/
  outcome : ∀ id o, s.requests[id]? = some (.sent o) →
    ∃ before now kill lock, Occurs es before (now, .post id kill lock) ∧
      (run fresh before).sends (.post id kill lock) = some id ∧ o = (Dispatch.send kill lock).1

theorem ledger_nil : Ledger [] fresh where
  origin id r h := by simp [fresh] at h
  once before e id h := absurd h (not_occurs_nil before e)
  outcome id o h := by simp [fresh] at h

/-- One more step keeps `Ledger`. -/
theorem ledger_concat {es : List (Instant × Event)} (h : Ledger es (run fresh es))
    (e : Instant × Event) : Ledger (es ++ [e]) (run fresh (es ++ [e])) := by
  have hlast : Occurs (es ++ [e]) es e := occurs_concat.2 (.inr ⟨rfl, rfl⟩)
  have hold : ∀ {before x}, Occurs es before x → Occurs (es ++ [e]) before x :=
    fun hx => occurs_concat.2 (.inl hx)
  rw [run_concat]
  constructor
  · intro id r hr
    have hlife := life_step (run fresh es) e id
    rw [hr] at hlife
    -- only `issue` makes a request out of nothing
    have hcase : Issues (run fresh es) e id ∨ ∃ r', (run fresh es).requests[id]? = some r' := by
      generalize (run fresh es).requests[id]? = now at hlife ⊢
      cases hlife with
      | same => exact .inr ⟨r, rfl⟩
      | issue issues => exact .inl issues
      | _ => exact .inr ⟨_, rfl⟩
    rcases hcase with issues | ⟨r', hr'⟩
    · exact ⟨es, e, hlast, issues⟩
    · obtain ⟨before, x, hx, issues⟩ := h.origin id r' hr'
      exact ⟨before, x, hold hx, issues⟩
  · intro before x id hx hsends
    have hlife := life_step (run fresh es) e id
    rcases occurs_concat.1 hx with hx | ⟨rfl, rfl⟩
    · obtain ⟨hnone, hissued⟩ := h.once before x id hx hsends
      generalize (run fresh es).requests[id]? = r at hlife hnone hissued
      generalize ((run fresh es).step e.1 e.2).2.requests[id]? = r' at hlife ⊢
      cases hlife with
      | same => exact ⟨hnone, hissued⟩
      | issue => exact absurd rfl hnone
      | post | send => exact absurd rfl hissued
      | deliver => simp
    · rw [waiting_of_sends hsends] at hlife
      generalize ((run fresh before).step x.1 x.2).2.requests[id]? = r' at hlife ⊢
      cases hlife with
      | same r hs => exact absurd hsends hs
      | post | send => simp
  · intro id o ho
    have hlife := life_step (run fresh es) e id
    rw [ho] at hlife
    have hcase : (∃ kill lock, e.2 = .post id kill lock ∧
        (run fresh es).requests[id]? = some .issued ∧ o = (Dispatch.send kill lock).1) ∨
        (run fresh es).requests[id]? = some (.sent o) := by
      generalize (run fresh es).requests[id]? = now at hlife ⊢
      cases hlife with
      | same => exact .inr rfl
      | post kill lock event => exact .inl ⟨kill, lock, event, rfl, rfl⟩
    rcases hcase with ⟨kill, lock, event, hwaiting, rfl⟩ | ho'
    · obtain ⟨now, e⟩ := e
      cases event
      exact ⟨es, now, kill, lock, hlast, if_pos hwaiting, rfl⟩
    · obtain ⟨before, now, kill, lock, hx, hsends, rfl⟩ := h.outcome id o ho'
      exact ⟨before, now, kill, lock, hold hx, hsends, rfl⟩

/-- Every run from `fresh` has its `Ledger`. -/
theorem ledger_run (es : List (Instant × Event)) : Ledger es (run fresh es) := by
  induction es using List.reverseRecOn with
  | nil => exact ledger_nil
  | append_singleton es e ih => exact ledger_concat ih e

end Interlock.Session

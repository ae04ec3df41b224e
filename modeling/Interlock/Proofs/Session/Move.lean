import Interlock.Proofs.Safety.Attempt
import Interlock.Session

/-!
# What one step of a session can do

For the theory of attempts, a step counts by what it makes of `console.dialog` and `requests`, by
its posts and by its answer. `Move s e effect s'` lists all that a step can do to these, each with
the conditions under which it does it, and `move_step` says that every step is one of them.
Everything that holds of attempts in every run goes through the cases of `Move`.
-/

namespace Interlock.Session

/-! ## What a step shows of attempts -/

/-- The confirmation that a step resolved, if it resolved one. -/
def Answer.confirmation? : Answer → Option Confirmation
  | .pressed _ _ c => c
  | .confirmation c => some c
  | _ => none

/-- Whether the dialog took the outcome of the step, if there was one. -/
def Answer.recorded? : Answer → Option Bool
  | .recorded b => some b
  | .sent _ b => some b
  | _ => none

theorem Answer.recorded?_of_confirmation? {a : Answer} {c : Confirmation}
    (h : a.confirmation? = some c) : a.recorded? = none := by
  cases a <;> first | rfl | cases h

/-- The number of the request that a step sends. -/
def sends (s : Session) : Event → Option Nat
  | .post id _ _ => if s.requests[id]? = some .issued then some id else none
  | .send _ _ =>
    if s.requests[s.requests.length - 1]? = some .issued then some (s.requests.length - 1) else none
  | _ => none

/-- The step is `begin`, or a key that commands to confirm and is carried out. -/
def Resolves (s : Session) (e : Event) : Prop :=
  e = .begin ∨ ∃ action, e = .key action ∧ (s.console.press action).1 = .confirmKill

/-- What a step can do to the dialog and to the requests. -/
inductive Move (s : Session) : Event → Effect → Session → Prop
  /-- Nothing. -/
  | quiet {e effect s'} (sends : s.sends e = none) (resolves : ¬ s.Resolves e)
      (dialog : s'.console.dialog = s.console.dialog) (requests : s'.requests = s.requests)
      (posts : effect.posts = []) (answer : effect.answer.confirmation? = none)
      (recorded : effect.answer.recorded? = none) : Move s e effect s'
  /-- A key acts on the console. -/
  | key {e effect s'} (action : KeyAction) (event : e = .key action ∨ e = .press action)
      (resolves : ¬ s.Resolves e) (console : s'.console = (s.console.press action).2)
      (requests : s'.requests = s.requests) (posts : effect.posts = [])
      (answer : effect.answer = .pressed (s.console.press action).1 none none ∨
        effect.answer = .pressed .refresh (some s.listening) none) : Move s e effect s'
  /-- A confirmation meets a dialog that does not ask. -/
  | ignored {e effect s'} (resolves : s.Resolves e) (phase : s.console.dialog.phase ≠ .confirming)
      (dialog : s'.console.dialog = s.console.dialog) (requests : s'.requests = s.requests)
      (posts : effect.posts = []) (answer : effect.answer.confirmation? = some .ignored) :
      Move s e effect s'
  /-- A confirmation meets a closed gate. -/
  | blocked {e effect s'} (resolves : s.Resolves e) (phase : s.console.dialog.phase = .confirming)
      (gate : s.gateLocked = true)
      (dialog : s'.console.dialog = ⟨.blocked, some (.ofError .blocked)⟩)
      (requests : s'.requests = s.requests) (posts : effect.posts = [])
      (answer : effect.answer.confirmation? = some (.blocked (.ofError .blocked))) :
      Move s e effect s'
  /-- A confirmation passes the gate and issues a request. -/
  | issued {e effect s'} (resolves : s.Resolves e) (phase : s.console.dialog.phase = .confirming)
      (gate : s.gateLocked = false) (dialog : s'.console.dialog = ⟨.sending, some .pending⟩)
      (requests : s'.requests = s.requests ++ [.issued]) (posts : effect.posts = [])
      (answer : effect.answer.confirmation? = some .send) : Move s e effect s'
  /-- An issued request is sent. -/
  | posted {effect s'} (id : Nat) (kill lock : Posted) (waiting : s.requests[id]? = some .issued)
      (dialog : s'.console.dialog = s.console.dialog)
      (requests : s'.requests = s.requests.set id (.sent (Dispatch.send kill lock).1))
      (posts : effect.posts = (Dispatch.send kill lock).2)
      (answer : effect.answer = .outcome (some (Dispatch.send kill lock).1)) :
      Move s (.post id kill lock) effect s'
  /-- The outcome of a sent request reaches the dialog. -/
  | delivered {effect s'} (id : Nat) (o : Outcome) (waiting : s.requests[id]? = some (.sent o))
      (dialog : s'.console.dialog = (s.console.dialog.complete o).2)
      (requests : s'.requests = s.requests.set id .finished) (posts : effect.posts = [])
      (answer : effect.answer = .recorded (s.console.dialog.complete o).1) :
      Move s (.deliver id) effect s'
  /-- The request that was issued last is sent, and its outcome reaches the dialog. -/
  | sent {effect s'} (id : Nat) (kill lock : Posted) (last : id = s.requests.length - 1)
      (waiting : s.requests[id]? = some .issued)
      (dialog : s'.console.dialog = (s.console.dialog.complete (Dispatch.send kill lock).1).2)
      (requests : s'.requests = s.requests.set id .finished)
      (posts : effect.posts = (Dispatch.send kill lock).2)
      (answer : effect.answer = .sent (Dispatch.send kill lock).1
        (s.console.dialog.complete (Dispatch.send kill lock).1).1) :
      Move s (.send kill lock) effect s'
  /-- Some outcome reaches the dialog. -/
  | finished {effect s'} (o : Outcome)
      (dialog : s'.console.dialog = (s.console.dialog.complete o).2)
      (requests : s'.requests = s.requests) (posts : effect.posts = [])
      (answer : effect.answer = .recorded (s.console.dialog.complete o).1) :
      Move s (.finish o) effect s'
  /-- A confirmation is carried through: ignored, blocked, or sent at once. -/
  | attempted {effect s'} (kill lock : Posted)
      (dialog : s'.console.dialog =
        (Dispatch.confirm s.gateLocked kill lock s.console.dialog).dialog)
      (requests : s'.requests = s.requests)
      (posts : effect.posts = (Dispatch.confirm s.gateLocked kill lock s.console.dialog).posts)
      (answer : effect.answer =
        .outcome (Dispatch.confirm s.gateLocked kill lock s.console.dialog).outcome) :
      Move s (.confirm kill lock) effect s'

/-! ## Every step is such a move -/

/-- A step that only `Resolves` is ignored, blocked, or issues a request. -/
theorem move_resolve {s : Session} {e : Event} {effect : Effect} (h : s.Resolves e)
    (hp : effect.posts = []) (hc : effect.answer.confirmation? = some s.resolve.1) :
    Move s e effect s.resolve.2.2 := by
  by_cases hphase : s.console.dialog.phase = .confirming
  · cases hgate : s.gateLocked with
    | true =>
      have hbegin := Dispatch.begin_of_locked hphase
      refine .blocked h hphase hgate ?_ ?_ hp ?_
      · simp only [resolve, hgate, hbegin, setDialog]
      · simp [resolve, hgate, hbegin, setDialog]
      · rw [hc]
        simp only [resolve, hgate, hbegin]
    | false =>
      have hbegin := Dispatch.begin_of_unlocked hphase
      refine .issued h hphase hgate ?_ ?_ hp ?_
      · simp only [resolve, hgate, hbegin, setDialog]
      · simp [resolve, hgate, hbegin, setDialog]
      · rw [hc]
        simp only [resolve, hgate, hbegin]
  · have hbegin := Dispatch.begin_of_ne s.gateLocked hphase
    refine .ignored h hphase ?_ ?_ hp ?_
    · simp only [resolve, hbegin, setDialog]
    · simp [resolve, hbegin, setDialog]
    · rw [hc]
      simp only [resolve, hbegin]

/-- `pressKey` is a `Move`. -/
theorem move_pressKey (s : Session) (action : KeyAction) :
    Move s (.key action) (s.pressKey action).1 (s.pressKey action).2 := by
  by_cases h : (s.console.press action).1 = .confirmKill
  · have hc : (s.console.press action).2 = s.console := (Console.press_eq_confirmKill h).2.2
    -- the key itself leaves the console alone, so only the confirmation is left
    have hpress : s.console.press action = (.confirmKill, s.console) := Prod.ext h hc
    simp only [pressKey, hpress]
    exact move_resolve (.inr ⟨action, rfl, h⟩) rfl rfl
  · have hr : ¬ s.Resolves (.key action) := by
      rintro (he | ⟨a, he, ha⟩)
      · cases he
      · cases he
        exact h ha
    cases hcommand : (s.console.press action).1 with
    | confirmKill => exact absurd hcommand h
    | refresh =>
      simp only [pressKey, hcommand]
      exact .key action (.inl rfl) hr rfl rfl rfl (.inr rfl)
    | none =>
      simp only [pressKey, hcommand]
      exact .key action (.inl rfl) hr rfl rfl rfl (.inl (by rw [hcommand]; rfl))
    | quit =>
      simp only [pressKey, hcommand]
      exact .key action (.inl rfl) hr rfl rfl rfl (.inl (by rw [hcommand]; rfl))

/-- Only `begin` and `key` resolve. -/
theorem not_resolves {s : Session} {e : Event} (hb : e ≠ .begin) (hk : ∀ a, e ≠ .key a) :
    ¬ s.Resolves e := by
  rintro (he | ⟨a, he, _⟩)
  · exact hb he
  · exact hk a he

/-- Every step is a `Move`. -/
theorem move_step (s : Session) (now : Instant) (e : Event) :
    Move s e (s.step now e).1 (s.step now e).2 := by
  cases e with
  | key action => exact move_pressKey s action
  | press action =>
    exact .key action (.inr rfl) (not_resolves (by simp) (by simp)) rfl rfl rfl (.inl rfl)
  | begin => exact move_resolve (.inl rfl) rfl rfl
  | post id kill lock =>
    match hrequest : s.requests[id]? with
    | some .issued =>
      simp only [step, hrequest]
      exact .posted id kill lock hrequest rfl rfl rfl rfl
    | none | some (.sent _) | some .finished =>
      have hsends : s.sends (.post id kill lock) = none := by simp [sends, hrequest]
      simp only [step, hrequest]
      exact .quiet hsends (not_resolves (by simp) (by simp)) rfl rfl rfl rfl rfl
  | deliver id =>
    match hrequest : s.requests[id]? with
    | some (.sent o) =>
      simp only [step, hrequest]
      exact .delivered id o hrequest rfl rfl rfl rfl
    | none | some .issued | some .finished =>
      simp only [step, hrequest]
      exact .quiet rfl (not_resolves (by simp) (by simp)) rfl rfl rfl rfl rfl
  | send kill lock =>
    match hrequest : s.requests[s.requests.length - 1]? with
    | some .issued =>
      simp only [step, hrequest]
      exact .sent _ kill lock rfl hrequest rfl rfl rfl rfl
    | none | some (.sent _) | some .finished =>
      have hsends : s.sends (.send kill lock) = none := by simp [sends, hrequest]
      simp only [step, hrequest]
      exact .quiet hsends (not_resolves (by simp) (by simp)) rfl rfl rfl rfl rfl
  | finish o => exact .finished o rfl rfl rfl rfl
  | confirm kill lock => exact .attempted kill lock rfl rfl rfl rfl
  -- the other events touch neither the dialog nor a request
  | start k =>
    simp only [step]
    split <;> exact .quiet rfl (not_resolves (by simp) (by simp)) rfl rfl rfl rfl rfl
  | settle id r =>
    simp only [step]
    split <;> exact .quiet rfl (not_resolves (by simp) (by simp)) rfl rfl rfl rfl rfl
  | sync =>
    simp only [step]
    split <;> exact .quiet rfl (not_resolves (by simp) (by simp)) rfl rfl rfl rfl rfl
  | refresh | refreshAll | close | request | dropRequests =>
    exact .quiet rfl (not_resolves (by simp) (by simp)) rfl rfl rfl rfl rfl

end Interlock.Session

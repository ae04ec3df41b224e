import Interlock.Proofs.Session.Gate

/-!
# Every confirmation was opened by hand

The dialog comes to `.confirming` only by a press that `Opens` it: of the kill key, or of the lock
key while the verdict shown recommends the lock. `asks_step` says when the dialog asks after a step,
and two facts about every run follow:

* `openedBy_run`: a dialog that asks goes back to the press that opened it, after which nobody has
  opened, cancelled or confirmed;
* `budget_run`: `requests` never outnumber the presses that opened the dialog.

A command to confirm may be left alone for a while (`Awaits`), so that others come in between.
`Prompt` says that this does not last beyond the next key; then each command has an opening of its
own.
-/

namespace Interlock

/-! ## When the dialog asks -/

namespace Dialog

/-- `complete` neither enters nor leaves `.confirming`. -/
theorem phase_complete_eq_confirming (d : Dialog) (o : Outcome) :
    (d.complete o).2.phase = .confirming ↔ d.phase = .confirming := by
  by_cases h : d.phase = .sending
  · obtain ⟨phase, outcome⟩ := d
    subst h
    cases hstatus : o.status <;>
      simp [complete, goTo, hstatus, DialogPhase.ofStatus, DialogPhase.canBecome]
  · rw [complete_of_ne o h]

end Dialog

namespace Console

/-- The kill key, or the lock key while the verdict shown recommends the lock, with no dialog
visible. -/
def Opens (c : Console) (action : KeyAction) : Prop :=
  c.dialog.isVisible = false ∧
    (action = .openKill ∨ action = .openLock ∧ c.verdict.lockRecommended = true)

instance (c : Console) (action : KeyAction) : Decidable (c.Opens action) :=
  inferInstanceAs (Decidable (_ ∧ _))

/-- `dialogKey` leads to `.confirming` only from there, and not by `.cancel`. -/
theorem phase_dialogKey_eq_confirming (c : Console) (action : KeyAction) :
    (c.dialogKey action).2.dialog.phase = .confirming ↔
      c.dialog.phase = .confirming ∧ action ≠ .cancel := by
  obtain ⟨-, hcancel, hdismiss⟩ := c.dialog.phase_operator
  by_cases hphase : c.dialog.phase = .confirming
  · unfold dialogKey
    rw [hphase]
    cases action with
    | cancel =>
      show c.dialog.cancel.2.phase = .confirming ↔ _
      rw [hcancel, if_pos hphase]
      exact iff_of_false nofun fun h => h.2 rfl
    | _ => exact iff_of_true hphase ⟨rfl, nofun⟩
  · -- where the dialog does not ask, its keys can only close it
    obtain ⟨command, d, hkey, -, hcloses⟩ := c.exists_dialogKey_eq action
    rw [hkey]
    have hne : d.phase ≠ .confirming := by
      rcases hcloses with rfl | rfl | rfl
      · exact hphase
      · rw [hcancel, if_neg hphase]
        exact hphase
      · rw [hdismiss]
        split
        · exact nofun
        · exact hphase
    exact iff_of_false hne fun h => hphase h.1

/-- `cardKey` leads to `.confirming` if and only if the key `Opens`. -/
theorem phase_cardKey_eq_confirming {c : Console} (h : c.dialog.isVisible = false)
    (action : KeyAction) :
    (c.cardKey action).2.dialog.phase = .confirming ↔ c.Opens action := by
  have hphase : c.dialog.phase = .idle := by simpa [Dialog.isVisible] using h
  have hidle : c.dialog.phase ≠ .confirming := by
    rw [hphase]
    decide
  have hreopen : c.openDialog.dialog.phase = .confirming :=
    c.dialog.phase_operator.1.trans (if_pos (.inl hphase))
  cases action with
  | openKill => simp [cardKey, Opens, h, hreopen]
  | openLock =>
    cases hlock : c.verdict.lockRecommended <;> simp [cardKey, Opens, h, hreopen, hidle, hlock]
  | _ => simp [cardKey, toggleRaw, nextCard, prevCard, Opens, hidle]

/-- `press` leads to `.confirming` if the key `Opens`, or from there, and not by `.cancel`. -/
theorem phase_press_eq_confirming (c : Console) (action : KeyAction) :
    (c.press action).2.dialog.phase = .confirming ↔
      c.Opens action ∨ c.dialog.phase = .confirming ∧ action ≠ .cancel := by
  unfold press
  cases hvisible : c.dialog.isVisible with
  | true =>
    have hopens : ¬ c.Opens action := by simp [Opens, hvisible]
    rw [if_pos rfl, phase_dialogKey_eq_confirming]
    simp [hopens]
  | false =>
    have hidle : c.dialog.phase ≠ .confirming := by
      intro hphase
      simp [Dialog.isVisible, hphase] at hvisible
    rw [if_neg (by simp), phase_cardKey_eq_confirming hvisible]
    simp [hidle]

end Console

namespace Session

/-- The key that an event presses, if it presses one. -/
def Event.key? : Event → Option KeyAction
  | .key action => some action
  | .press action => some action
  | _ => none

/-- The step presses a key that `Opens` the dialog. -/
def Opens (s : Session) (e : Event) : Prop := ∃ action ∈ e.key?, s.console.Opens action

instance (s : Session) (e : Event) : Decidable (s.Opens e) :=
  inferInstanceAs (Decidable (∃ action ∈ e.key?, s.console.Opens action))

/-- The step presses a key that commands `.confirmKill`. -/
def Confirms (s : Session) (e : Event) : Prop :=
  ∃ action ∈ e.key?, (s.console.press action).1 = .confirmKill

variable {s : Session} {now : Instant} {e : Event}

/-- A step that `Confirms` is `.confirm` in `.confirming`. -/
theorem Confirms.asks (h : s.Confirms e) :
    s.console.dialog.phase = .confirming ∧ e.key? = some .confirm := by
  obtain ⟨action, hkey, hcommand⟩ := h
  obtain ⟨hphase, rfl, -⟩ := Console.press_eq_confirmKill hcommand
  exact ⟨hphase, hkey⟩

theorem Opens.phase_ne (h : s.Opens e) : s.console.dialog.phase ≠ .confirming := by
  obtain ⟨action, -, hhidden, -⟩ := h
  intro hphase
  simp [Dialog.isVisible, hphase] at hhidden

/-- A step that `Resolves` is `begin` or `Confirms`. -/
theorem confirms_of_resolves (h : s.Resolves e) : e = .begin ∨ s.Confirms e := by
  rcases h with rfl | ⟨action, rfl, hcommand⟩
  · exact .inl rfl
  · exact .inr ⟨action, rfl, hcommand⟩

/-- A key acts on the console by `press`, unless it `Resolves`. -/
theorem console_step_of_key {action : KeyAction} (hkey : e.key? = some action)
    (h : ¬ s.Resolves e) : (s.step now e).2.console = (s.console.press action).2 := by
  cases e with
  | key a =>
    cases hkey
    have hcommand : (s.console.press action).1 ≠ .confirmKill := by
      intro hcommand
      exact h (.inr ⟨action, rfl, hcommand⟩)
    show (s.pressKey action).2.console = _
    unfold pressKey
    cases hpress : s.console.press action with
    | mk command console =>
      rw [hpress] at hcommand
      cases command with
      | confirmKill => exact absurd rfl hcommand
      | _ => rfl
  | press a =>
    cases hkey
    rfl
  | _ => cases hkey

/-- After a step that `AsksGate`, the phase is not `.confirming`. -/
theorem phase_step_of_asksGate (h : s.AsksGate e) :
    (s.step now e).2.console.dialog.phase ≠ .confirming := by
  rcases h with hresolves | ⟨kill, lock, rfl⟩
  · cases move_step s now e with
    | ignored _ phase dialog =>
      rw [dialog]
      exact phase
    | blocked _ _ _ dialog | issued _ _ _ dialog =>
      rw [dialog]
      decide
    | quiet _ resolves | key _ _ resolves => exact absurd hresolves resolves
    | posted | delivered | sent | finished | attempted =>
      exact absurd hresolves (not_resolves (by simp) (by simp))
  · show (Dispatch.confirm s.gateLocked kill lock s.console.dialog).dialog.phase ≠ _
    by_cases hphase : s.console.dialog.phase = .confirming
    · cases s.gateLocked with
      | true =>
        rw [Dispatch.confirm_of_locked kill lock hphase]
        decide
      | false =>
        rw [Dispatch.confirm_of_unlocked kill lock hphase]
        rcases Dispatch.isAnswer_send kill lock with ho | ho | ho <;>
          simp [ho, DialogPhase.ofStatus]
    · rw [Dispatch.confirm_of_ne _ kill lock hphase]
      exact hphase

/-- Without a key and without `AsksGate`, a step neither enters nor leaves `.confirming`. -/
theorem phase_step_of_no_key (hkey : e.key? = none) (h : ¬ s.AsksGate e) :
    (s.step now e).2.console.dialog.phase = .confirming ↔
      s.console.dialog.phase = .confirming := by
  cases move_step s now e with
  | quiet _ _ dialog | posted _ _ _ _ dialog => rw [dialog]
  | delivered _ o _ dialog | finished o dialog =>
    rw [dialog]
    exact Dialog.phase_complete_eq_confirming _ o
  | sent _ kill lock _ _ dialog =>
    rw [dialog]
    exact Dialog.phase_complete_eq_confirming _ _
  | key action event => rcases event with rfl | rfl <;> cases hkey
  | ignored resolves | blocked resolves | issued resolves => exact absurd (.inl resolves) h
  | attempted kill lock => exact absurd (.inr ⟨kill, lock, rfl⟩) h

/-- After a step the phase is `.confirming` if the step `Opens`, or if it was and the step neither
cancels nor `AsksGate`. -/
theorem asks_step (s : Session) (now : Instant) (e : Event) :
    (s.step now e).2.console.dialog.phase = .confirming ↔
      s.Opens e ∨
        s.console.dialog.phase = .confirming ∧ e.key? ≠ some .cancel ∧ ¬ s.AsksGate e := by
  by_cases hasks : s.AsksGate e
  · have hopens : ¬ s.Opens e := by
      rintro ⟨action, hkey, hopens⟩
      rcases hasks with hresolves | ⟨kill, lock, rfl⟩
      · rcases confirms_of_resolves hresolves with rfl | hconfirms
        · cases hkey
        · exact Opens.phase_ne ⟨action, hkey, hopens⟩ hconfirms.asks.1
      · cases hkey
    simp [phase_step_of_asksGate hasks, hopens, hasks]
  · cases hkey : e.key? with
    | none =>
      rw [phase_step_of_no_key hkey hasks]
      simp [Opens, hkey, hasks]
    | some action =>
      have hresolves : ¬ s.Resolves e := fun hresolves => hasks (.inl hresolves)
      rw [console_step_of_key hkey hresolves, Console.phase_press_eq_confirming]
      simp [Opens, hkey, hasks]

/-! ## What has happened since -/

theorem Occurs.length_lt {es before : List (Instant × Event)} {x : Instant × Event}
    (h : Occurs es before x) : before.length < es.length := by
  have hlength := List.IsPrefix.length_le h
  rw [List.length_append, List.length_singleton] at hlength
  omega

/-- Every step of `es` after the one at `before` satisfies `p`. -/
def EverSince (es before : List (Instant × Event))
    (p : List (Instant × Event) → Instant × Event → Prop) : Prop :=
  ∀ later x, Occurs es later x → before.length < later.length → p later x

theorem everSince_last (es : List (Instant × Event)) (x : Instant × Event)
    (p : List (Instant × Event) → Instant × Event → Prop) : EverSince (es ++ [x]) es p := by
  intro later y hy hlater
  have hlt := hy.length_lt
  rw [List.length_append, List.length_singleton] at hlt
  omega

/-- `EverSince` of a run that is longer by one. -/
theorem everSince_concat {es before : List (Instant × Event)} {x : Instant × Event}
    {p : List (Instant × Event) → Instant × Event → Prop} (h : before.length < es.length) :
    EverSince (es ++ [x]) before p ↔ EverSince es before p ∧ p es x := by
  constructor
  · intro hsince
    refine ⟨?_, hsince es x (occurs_concat.2 (.inr ⟨rfl, rfl⟩)) h⟩
    intro later y hy hlater
    exact hsince later y (occurs_concat.2 (.inl hy)) hlater
  · rintro ⟨hsince, hx⟩ later y hy hlater
    rcases occurs_concat.1 hy with hy | ⟨rfl, rfl⟩
    · exact hsince later y hy hlater
    · exact hx

/-- `p` has happened and `EverSince` then `q`, in a run that is longer by one. -/
theorem since_concat {p q : List (Instant × Event) → Instant × Event → Prop}
    {es : List (Instant × Event)} {x : Instant × Event} :
    (∃ before y, Occurs (es ++ [x]) before y ∧ p before y ∧ EverSince (es ++ [x]) before q) ↔
      p es x ∨ (∃ before y, Occurs es before y ∧ p before y ∧ EverSince es before q) ∧ q es x := by
  constructor
  · rintro ⟨before, y, hy, hp, hsince⟩
    rcases occurs_concat.1 hy with hy | ⟨rfl, rfl⟩
    · obtain ⟨hsince, hx⟩ := (everSince_concat hy.length_lt).1 hsince
      exact .inr ⟨⟨before, y, hy, hp, hsince⟩, hx⟩
    · exact .inl hp
  · rintro (hp | ⟨⟨before, y, hy, hp, hsince⟩, hx⟩)
    · exact ⟨es, x, occurs_concat.2 (.inr ⟨rfl, rfl⟩), hp, everSince_last es x _⟩
    · exact ⟨before, y, occurs_concat.2 (.inl hy), hp,
        (everSince_concat hy.length_lt).2 ⟨hsince, hx⟩⟩

theorem Occurs.of_lt {es before later : List (Instant × Event)} {x y : Instant × Event}
    (hx : Occurs es before x) (hy : Occurs es later y) (h : before.length < later.length) :
    Occurs later before x := by
  refine List.prefix_of_prefix_length_le hx (List.IsPrefix.trans (List.prefix_append _ _) hy) ?_
  rw [List.length_append, List.length_singleton]
  omega

theorem Occurs.unique {es before before' : List (Instant × Event)} {x x' : Instant × Event}
    (hx : Occurs es before x) (hx' : Occurs es before' x') (h : before.length = before'.length) :
    before = before' ∧ x = x' := by
  have hlength : (before ++ [x]).length = (before' ++ [x']).length := by
    rw [List.length_append, List.length_append, h]
    rfl
  have hle := List.prefix_of_prefix_length_le hx hx' (Nat.le_of_eq hlength)
  obtain ⟨hbefore, hlast⟩ := List.append_inj' (hle.eq_of_length hlength) rfl
  exact ⟨hbefore, List.singleton_inj.1 hlast⟩

/-! ## Commands that wait -/

/-- At the end of `es` a command to confirm waits: a step `Confirms` without `Resolves`, and no step
`AsksGate` since. -/
def Awaits (es : List (Instant × Event)) : Prop :=
  ∃ before x, Occurs es before x ∧
    ((run fresh before).Confirms x.2 ∧ ¬ (run fresh before).Resolves x.2) ∧
    EverSince es before fun later y => ¬ (run fresh later).AsksGate y.2

theorem not_awaits_nil : ¬ Awaits [] := by
  rintro ⟨before, x, hx, -⟩
  exact not_occurs_nil before x hx

/-- `Awaits` of a run that is longer by one. -/
theorem awaits_concat {es : List (Instant × Event)} {x : Instant × Event} :
    Awaits (es ++ [x]) ↔
      (run fresh es).Confirms x.2 ∧ ¬ (run fresh es).Resolves x.2 ∨
        Awaits es ∧ ¬ (run fresh es).AsksGate x.2 :=
  since_concat

theorem not_awaits_concat {es : List (Instant × Event)} {x : Instant × Event} (h : ¬ Awaits es)
    (hkey : x.2.key? ≠ some .confirm) : ¬ Awaits (es ++ [x]) := by
  rw [awaits_concat]
  rintro (⟨hconfirms, -⟩ | ⟨hawaits, -⟩)
  · exact hkey hconfirms.asks.2
  · exact h hawaits

/-- No key is pressed while a command to confirm `Awaits`. -/
def Prompt (es : List (Instant × Event)) : Prop :=
  ∀ before x, Occurs es before x → x.2.key? ≠ none → ¬ Awaits before

theorem prompt_nil : Prompt [] := by
  intro before x hx
  exact absurd hx (not_occurs_nil before x)

/-- `Prompt` of a run that is longer by one. -/
theorem prompt_concat {es : List (Instant × Event)} {x : Instant × Event} :
    Prompt (es ++ [x]) ↔ Prompt es ∧ (x.2.key? ≠ none → ¬ Awaits es) := by
  constructor
  · intro h
    refine ⟨?_, h es x (occurs_concat.2 (.inr ⟨rfl, rfl⟩))⟩
    intro before y hy
    exact h before y (occurs_concat.2 (.inl hy))
  · rintro ⟨h, hx⟩ before y hy
    rcases occurs_concat.1 hy with hy | ⟨rfl, rfl⟩
    · exact h before y hy
    · exact hx

theorem Prompt.of_occurs {es before : List (Instant × Event)} {x : Instant × Event}
    (h : Prompt es) (hx : Occurs es before x) : Prompt before := by
  intro earlier y hy
  exact h earlier y (List.IsPrefix.trans hy (List.IsPrefix.trans (List.prefix_append _ _) hx))

/-- In a `Prompt` run that `Awaits`, the phase is `.confirming`. -/
theorem asks_of_awaits {es : List (Instant × Event)} (hprompt : Prompt es) (h : Awaits es) :
    (run fresh es).console.dialog.phase = .confirming := by
  induction es using List.reverseRecOn with
  | nil => exact absurd h not_awaits_nil
  | append_singleton es x ih =>
    obtain ⟨hprompt, hkey⟩ := prompt_concat.1 hprompt
    rw [run_concat, asks_step]
    rcases awaits_concat.1 h with ⟨hconfirms, hresolves⟩ | ⟨hawaits, hasks⟩
    · obtain ⟨hphase, hconfirm⟩ := hconfirms.asks
      refine .inr ⟨hphase, by simp [hconfirm], ?_⟩
      rintro (h | ⟨kill, lock, h⟩)
      · exact hresolves h
      · rw [h] at hconfirm
        cases hconfirm
    · -- the step is no key, so it does not cancel
      have hnone : x.2.key? = none := by
        by_contra hsome
        exact hkey hsome hawaits
      exact .inr ⟨ih hprompt hawaits, by simp [hnone], hasks⟩

/-! ## The press behind a prompt -/

/-- The step `o`, after `opening`, `Opens` the prompt with which `es` ends: since then no step
`Opens`, cancels, `Confirms` or `AsksGate`. -/
structure OpenedBy (es opening : List (Instant × Event)) (o : Instant × Event) : Prop where
  occurs : Occurs es opening o
  opens : (run fresh opening).Opens o.2
  asks : (run fresh (opening ++ [o])).console.dialog.phase = .confirming
  since : EverSince es opening fun later x =>
    ¬ (run fresh later).Opens x.2 ∧ x.2.key? ≠ some .cancel ∧
      ¬ (run fresh later).Confirms x.2 ∧ ¬ (run fresh later).AsksGate x.2

/-- In `.confirming`, with no command that `Awaits`, the prompt is `OpenedBy` some step. -/
theorem openedBy_run {es : List (Instant × Event)}
    (hphase : (run fresh es).console.dialog.phase = .confirming) (hsettled : ¬ Awaits es) :
    ∃ opening o, OpenedBy es opening o := by
  induction es using List.reverseRecOn with
  | nil => cases hphase
  | append_singleton es x ih =>
    have hasks := hphase
    rw [run_concat, asks_step] at hasks
    by_cases hopens : (run fresh es).Opens x.2
    · exact ⟨es, x, occurs_concat.2 (.inr ⟨rfl, rfl⟩), hopens, hphase, everSince_last es x _⟩
    · obtain ⟨hbefore, hcancel, hgate⟩ := hasks.resolve_left hopens
      have hconfirms : ¬ (run fresh es).Confirms x.2 := by
        intro hconfirms
        exact hsettled (awaits_concat.2 (.inl ⟨hconfirms, fun h => hgate (.inl h)⟩))
      have hsettled' : ¬ Awaits es := by
        intro hawaits
        exact hsettled (awaits_concat.2 (.inr ⟨hawaits, hgate⟩))
      obtain ⟨opening, o, hopened⟩ := ih hbefore hsettled'
      refine ⟨opening, o, occurs_concat.2 (.inl hopened.occurs), hopened.opens, hopened.asks, ?_⟩
      exact (everSince_concat hopened.occurs.length_lt).2
        ⟨hopened.since, hopens, hcancel, hconfirms, hgate⟩

/-- Of two steps that `Confirms` and were `OpenedBy` one step, neither comes after the other. -/
theorem confirms_once {es before before' opening : List (Instant × Event)}
    {x x' o : Instant × Event} (hx : Occurs es before x) (hx' : Occurs es before' x')
    (hconfirms : (run fresh before).Confirms x.2) (hopened : OpenedBy before opening o)
    (hopened' : OpenedBy before' opening o) : before'.length ≤ before.length := by
  by_contra hlt
  have hbefore : Occurs before' before x := hx.of_lt hx' (by omega)
  exact (hopened'.since before x hbefore hopened.occurs.length_lt).2.2.1 hconfirms

/-! ## Counting -/

/-- The number of steps of a run at which `p` holds. -/
def countSteps (p : Session → Instant × Event → Bool) (s : Session) :
    List (Instant × Event) → Nat
  | [] => 0
  | e :: es => (p s e).toNat + countSteps p (s.step e.1 e.2).2 es

/-- The number of steps of a run that `Opens` the dialog. -/
def openings : Session → List (Instant × Event) → Nat := countSteps fun s e => s.Opens e.2

/-- The step is a `confirm` that sends, which leaves no entry in `requests`. -/
def carries (s : Session) (e : Instant × Event) : Bool :=
  match e.2 with
  | .confirm _ _ => (s.step e.1 e.2).1.posts ≠ []
  | _ => false

/-- 1 in `.confirming`, otherwise 0. -/
def prompts (s : Session) : Nat := (s.console.dialog.phase == .confirming).toNat

theorem prompts_of_asks (h : s.console.dialog.phase = .confirming) : s.prompts = 1 := by
  simp [prompts, h]

theorem prompts_of_ne (h : s.console.dialog.phase ≠ .confirming) : s.prompts = 0 := by
  simp [prompts, h]

/-- A step adds at most one request, and only if it `AsksGate` in `.confirming`. -/
theorem issue_step (s : Session) (e : Instant × Event) :
    (s.step e.1 e.2).2.requests.length + (s.carries e).toNat = s.requests.length ∨
      (s.step e.1 e.2).2.requests.length + (s.carries e).toNat ≤ s.requests.length + 1 ∧
        s.console.dialog.phase = .confirming ∧ s.AsksGate e.2 := by
  obtain ⟨now, e⟩ := e
  by_cases hconfirm : ∃ kill lock, e = .confirm kill lock
  · obtain ⟨kill, lock, rfl⟩ := hconfirm
    have hrequests : (s.step now (.confirm kill lock)).2.requests = s.requests := rfl
    rw [hrequests]
    by_cases hphase : s.console.dialog.phase = .confirming
    · have hone := Bool.toNat_le (s.carries (now, .confirm kill lock))
      exact .inr ⟨by omega, hphase, .inr ⟨kill, lock, rfl⟩⟩
    · have hposts : (s.step now (.confirm kill lock)).1.posts = [] := by
        by_contra hposts
        exact hphase ((outcome_of_confirm kill lock).1.1 hposts).1
      left
      simp [carries, hposts]
  · have hcarries : s.carries (now, e) = false := by
      cases e with
      | confirm kill lock => exact absurd ⟨kill, lock, rfl⟩ hconfirm
      | _ => rfl
    rw [hcarries]
    cases move_step s now e with
    | issued resolves phase _ _ requests => exact .inr ⟨by simp [requests], phase, .inl resolves⟩
    | attempted kill lock => exact absurd ⟨kill, lock, rfl⟩ hconfirm
    -- every other move keeps the number of the requests that are recorded
    | quiet _ _ _ requests | key _ _ _ _ requests | ignored _ _ _ requests
    | blocked _ _ _ _ requests | posted _ _ _ _ _ requests | delivered _ _ _ _ requests
    | sent _ _ _ _ _ _ requests | finished _ _ requests =>
      left
      simp [requests]

/-- Requests and `prompts` grow by at most one, and only in a step that `Opens`. -/
theorem budget_step (s : Session) (e : Instant × Event) :
    (s.step e.1 e.2).2.requests.length + (s.carries e).toNat + (s.step e.1 e.2).2.prompts ≤
      s.requests.length + s.prompts + (decide (s.Opens e.2)).toNat := by
  rcases issue_step s e with hnone | ⟨hone, hphase, hgate⟩
  · by_cases hafter : (s.step e.1 e.2).2.console.dialog.phase = .confirming
    · rw [prompts_of_asks hafter]
      rcases (asks_step s e.1 e.2).1 hafter with hopens | ⟨hphase, -⟩
      · rw [decide_eq_true hopens, Bool.toNat_true]
        omega
      · rw [prompts_of_asks hphase]
        omega
    · rw [prompts_of_ne hafter]
      omega
  · -- the prompt that is taken up is over after the step
    rw [prompts_of_asks hphase, prompts_of_ne (phase_step_of_asksGate hgate)]
    omega

/-- The run lemma of `budget_step`: requests and `prompts` are bounded by `openings`. -/
theorem budget_run (s : Session) (es : List (Instant × Event)) :
    (s.run es).requests.length + countSteps carries s es + (s.run es).prompts ≤
      s.requests.length + s.prompts + openings s es := by
  induction es generalizing s with
  | nil => exact Nat.le_refl _
  | cons e es ih =>
    have hstep := budget_step s e
    have hrest := ih (s.step e.1 e.2).2
    have hrun : s.run (e :: es) = (s.step e.1 e.2).2.run es := rfl
    have hcarries : countSteps carries s (e :: es) =
        (s.carries e).toNat + countSteps carries (s.step e.1 e.2).2 es := rfl
    have hopenings : openings s (e :: es) =
        (decide (s.Opens e.2)).toNat + openings (s.step e.1 e.2).2 es := rfl
    rw [hrun, hcarries, hopenings]
    omega

/-! ## One opening for each confirmation -/

/-- In a `Prompt` run each step that `Confirms` is `OpenedBy` a press, and no two by one press. The
requests are at most the `openings`, and a command that is resolved is never `.ignored`. -/
theorem confirmation_follows_opening (es : List (Instant × Event)) (hprompt : Prompt es) :
    (∀ before x, Occurs es before x → (run fresh before).Confirms x.2 →
      ∃ opening o, OpenedBy before opening o) ∧
    (∀ before x before' x' opening o, Occurs es before x → Occurs es before' x' →
      (run fresh before).Confirms x.2 → (run fresh before').Confirms x'.2 →
      OpenedBy before opening o → OpenedBy before' opening o → before = before' ∧ x = x') ∧
    (run fresh es).requests.length + countSteps carries fresh es ≤ openings fresh es ∧
    ∀ before x, Occurs es before x → (run fresh before).Resolves x.2 →
      (x.2 = .begin → Awaits before) →
      ∃ c, ((run fresh before).step x.1 x.2).1.answer.confirmation? = some c ∧ c ≠ .ignored := by
  refine ⟨?_, ?_, ?_, ?_⟩
  · intro before x hx hconfirms
    obtain ⟨hphase, hkey⟩ := hconfirms.asks
    exact openedBy_run hphase (hprompt before x hx (by simp [hkey]))
  · intro before x before' x' opening o hx hx' hconfirms hconfirms' hopened hopened'
    have hle := confirms_once hx hx' hconfirms hopened hopened'
    have hge := confirms_once hx' hx hconfirms' hopened' hopened
    exact hx.unique hx' (by omega)
  · have hbudget := budget_run fresh es
    have hnone : fresh.requests.length + fresh.prompts = 0 := rfl
    omega
  · intro before x hx hresolves hcommand
    have hphase : (run fresh before).console.dialog.phase = .confirming := by
      rcases confirms_of_resolves hresolves with hbegin | hconfirms
      · exact asks_of_awaits (hprompt.of_occurs hx) (hcommand hbegin)
      · exact hconfirms.asks.1
    obtain ⟨c, hanswer, -, -, hignored, -⟩ :=
      @confirmation_of_resolves (run fresh before) x.1 x.2 hresolves
    refine ⟨c, hanswer, ?_⟩
    intro h
    exact hignored.1 h hphase

/-- A command that is left alone at first, during a `sync`, and resolved then. -/
theorem confirmation_follows_opening_later :
    let opened : List (Instant × Event) := [
      (⟨0⟩, .refresh .executor (.answer 200 (some (.object [])))),
      (⟨1⟩, .press .openKill)]
    let es := opened ++ [(⟨2⟩, .press .confirm)] ++ [(⟨3⟩, .sync)] ++ [(⟨4⟩, .begin)]
    Prompt es ∧ (∃ opening o, OpenedBy opened opening o) ∧
      (run fresh es).requests.length = 1 ∧ openings fresh es = 1 := by
  intro opened es
  have hfetched : ¬ Awaits ([] ++ [opened[0]]) := not_awaits_concat not_awaits_nil (by decide)
  have hopened : ¬ Awaits ([opened[0]] ++ [opened[1]]) := not_awaits_concat hfetched (by decide)
  have hprompt : Prompt es := by
    refine prompt_concat.2 ⟨prompt_concat.2 ⟨prompt_concat.2 ⟨?_, fun _ => hopened⟩, ?_⟩, ?_⟩
    · show Prompt ([] ++ [opened[0]] ++ [opened[1]])
      exact prompt_concat.2 ⟨prompt_concat.2 ⟨prompt_nil, fun h => absurd rfl h⟩, fun _ => hfetched⟩
    · exact fun h => absurd rfl h
    · exact fun h => absurd rfl h
  obtain ⟨hopening, -⟩ := confirmation_follows_opening es hprompt
  have hconfirms : (run fresh opened).Confirms (.press .confirm) := ⟨.confirm, rfl, rfl⟩
  exact ⟨hprompt, hopening opened (⟨2⟩, .press .confirm) ⟨_, rfl⟩ hconfirms, rfl, rfl⟩

end Session

end Interlock

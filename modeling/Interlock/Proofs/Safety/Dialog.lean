import Interlock.Proofs.Safety.Attempt
import Mathlib.Data.List.Induction

/-!
# The dialog under any calls

`phase` and `outcome` of a dialog are written one after the other, and calls come in any order, with
any outcomes. `Move d c report d'` says all that one call can do, so every fact about calls is a
case analysis of it.

* `move_call`: every `call` is a `Move`.
* `Move.allowed`: an accepted call goes along `canBecome`, a refused one changes nothing.
* `coherent_run`: after any calls the dialog is `Coherent`, its outcome the one that belongs to the
  phase.
-/

namespace Interlock.Dialog

/-! ## Calls -/

/-- A call of the dialog. -/
inductive Call
  | reopen
  | cancel
  | dismiss
  | confirm (locked : Bool)
  | complete (outcome : Outcome)
  deriving DecidableEq

/-- What a call reports. -/
inductive Report
  | done (value : Bool)
  | resolved (c : Confirmation)
  deriving DecidableEq

/-- Whether a report says that the call had an effect. -/
def Report.accepts : Report → Bool
  | .done value => value
  | .resolved c => c != .ignored

/-- One call. -/
def call (d : Dialog) : Call → Report × Dialog
  | .reopen => (.done d.reopen.1, d.reopen.2)
  | .cancel => (.done d.cancel.1, d.cancel.2)
  | .dismiss => (.done d.dismiss.1, d.dismiss.2)
  | .confirm locked => (.resolved (d.confirm locked).1, (d.confirm locked).2)
  | .complete outcome => (.done (d.complete outcome).1, (d.complete outcome).2)

/-- A sequence of calls. -/
def run (d : Dialog) (calls : List Call) : Dialog := calls.foldl (fun d c => (d.call c).2) d

theorem run_concat (d : Dialog) (calls : List Call) (c : Call) :
    d.run (calls ++ [c]) = ((d.run calls).call c).2 := by
  unfold run
  rw [List.foldl_append]
  rfl

/-! ## What one call can do -/

/-- What decides on `confirm`: the phase, and then the gate. -/
inductive Resolved (d : Dialog) : Bool → Prop
  | ignored (locked : Bool) (phase : d.phase ≠ .confirming) : Resolved d locked
  | blocked (phase : d.phase = .confirming) : Resolved d true
  | sent (phase : d.phase = .confirming) : Resolved d false

theorem resolved (d : Dialog) (locked : Bool) : Resolved d locked := by
  by_cases hphase : d.phase = .confirming
  · cases locked with
    | true => exact .blocked hphase
    | false => exact .sent hphase
  · exact .ignored locked hphase

/-- The outcome of an attempt that the gate refused. -/
def refusal : Outcome := .ofError .blocked

/-- All that a call of the dialog `d` can report, and the dialog after it. -/
inductive Move (d : Dialog) : Call → Report → Dialog → Prop
  | refused (c : Call) (report : Report) (refuses : report.accepts = false) : Move d c report d
  | opened (phase : d.phase = .idle) : Move d .reopen (.done true) ⟨.confirming, none⟩
  /-- An ended attempt is closed first, and then the dialog is opened. -/
  | reopened (phase : d.phase.isTerminal = true) : Move d .reopen (.done true) ⟨.confirming, none⟩
  | cancelled (phase : d.phase = .confirming) : Move d .cancel (.done true) ⟨.idle, d.outcome⟩
  | dismissed (phase : d.phase.isTerminal = true) :
    Move d .dismiss (.done true) ⟨.idle, d.outcome⟩
  | blocked (phase : d.phase = .confirming) :
    Move d (.confirm true) (.resolved (.blocked refusal)) ⟨.blocked, some refusal⟩
  | sent (phase : d.phase = .confirming) :
    Move d (.confirm false) (.resolved .send) ⟨.sending, some .pending⟩
  /-- Only a request that is under way has an outcome, and only one that ends it. -/
  | completed (o : Outcome) (phase : d.phase = .sending) (answer : o.IsAnswer) :
    Move d (.complete o) (.done true) ⟨.ofStatus o.status, some o⟩

/-- `complete` refuses an outcome that is no answer, also a pending or a blocked one. -/
theorem complete_of_not_isAnswer {d : Dialog} {o : Outcome} (ho : ¬ o.IsAnswer) :
    d.complete o = (false, d) := by
  obtain ⟨status, code, detail⟩ := o
  by_cases hphase : d.phase = .sending
  · obtain ⟨phase, outcome⟩ := d
    subst hphase
    cases status with
    | pending | blocked => rfl
    | success => exact absurd (.inl rfl) ho
    | failed => exact absurd (.inr (.inl rfl)) ho
    | error => exact absurd (.inr (.inr rfl)) ho
  · exact complete_of_ne _ hphase

/-- Every `call` is a `Move`. -/
theorem move_call (d : Dialog) (c : Call) : Move d c (d.call c).1 (d.call c).2 := by
  cases c with
  | reopen =>
    obtain ⟨phase, outcome⟩ := d
    cases phase with
    | idle => exact .opened rfl
    | blocked | succeeded | failed | errored => exact .reopened rfl
    | confirming | sending => exact .refused _ _ rfl
  | cancel =>
    obtain ⟨phase, outcome⟩ := d
    cases phase with
    | confirming => exact .cancelled rfl
    | idle | blocked | sending | succeeded | failed | errored => exact .refused _ _ rfl
  | dismiss =>
    obtain ⟨phase, outcome⟩ := d
    cases phase with
    | blocked | succeeded | failed | errored => exact .dismissed rfl
    | idle | confirming | sending => exact .refused _ _ rfl
  | confirm locked =>
    show Move d _ (.resolved (d.confirm locked).1) (d.confirm locked).2
    cases d.resolved locked with
    | ignored _ phase =>
      rw [confirm_of_ne locked phase]
      exact .refused _ _ rfl
    | blocked phase =>
      rw [confirm_of_locked phase]
      exact .blocked phase
    | sent phase =>
      rw [confirm_of_unlocked phase]
      exact .sent phase
  | complete o =>
    show Move d _ (.done (d.complete o).1) (d.complete o).2
    by_cases hphase : d.phase = .sending
    · by_cases ho : o.IsAnswer
      · rw [complete_of_sending hphase ho]
        exact .completed o hphase ho
      · rw [complete_of_not_isAnswer ho]
        exact .refused _ _ rfl
    · rw [complete_of_ne o hphase]
      exact .refused _ _ rfl

/-- A call goes along `canBecome`. Only `reopen` of an ended attempt takes two edges, through
`.idle`. -/
inductive Follows (c : Call) (p p' : DialogPhase) : Prop
  | edge (may : p.canBecome p' = true)
  | edges (event : c = .reopen) (ended : p.isTerminal = true) (closes : p.canBecome .idle = true)
    (opens : DialogPhase.idle.canBecome p' = true)

variable {d d' : Dialog} {c : Call} {report : Report}

/-- A terminal phase may become `.idle`. -/
theorem canBecome_idle {p : DialogPhase} (h : p.isTerminal = true) : p.canBecome .idle = true := by
  cases p <;> first | rfl | cases h

/-- An accepted call `Follows` the edges of `canBecome`, a refused one leaves `d` as it is. -/
theorem Move.allowed (h : Move d c report d') :
    report.accepts = true ∧ Follows c d.phase d'.phase ∨ report.accepts = false ∧ d' = d := by
  cases h with
  | refused _ _ refuses => exact .inr ⟨refuses, rfl⟩
  | opened phase => exact .inl ⟨rfl, .edge (by rw [phase]; rfl)⟩
  | reopened phase => exact .inl ⟨rfl, .edges rfl phase (canBecome_idle phase) rfl⟩
  | cancelled phase => exact .inl ⟨rfl, .edge (by rw [phase]; rfl)⟩
  | dismissed phase => exact .inl ⟨rfl, .edge (canBecome_idle phase)⟩
  | blocked phase => exact .inl ⟨rfl, .edge (by rw [phase]; rfl)⟩
  | sent phase => exact .inl ⟨rfl, .edge (by rw [phase]; rfl)⟩
  | completed o phase answer =>
    rw [phase]
    rcases answer with answer | answer | answer <;> exact .inl ⟨rfl, .edge (by rw [answer]; rfl)⟩

/-- `complete` is accepted only in `.sending`, with an answer. -/
theorem Move.of_complete {o : Outcome} (h : Move d (.complete o) report d')
    (haccepts : report.accepts = true) :
    d.phase = .sending ∧ o.IsAnswer ∧ d' = ⟨.ofStatus o.status, some o⟩ := by
  cases h with
  | refused _ _ refuses =>
    rw [haccepts] at refuses
    cases refuses
  | completed _ phase answer => exact ⟨phase, answer, rfl⟩

/-- Only `complete` with an answer leads out of `.sending`. -/
theorem Move.of_sending (h : Move d c report d') (hphase : d.phase = .sending)
    (hleft : d' ≠ d) :
    ∃ o, c = .complete o ∧ o.IsAnswer ∧ d' = ⟨.ofStatus o.status, some o⟩ := by
  have hterminal : d.phase.isTerminal ≠ true := by
    rw [hphase]
    exact Bool.false_ne_true
  cases h with
  | refused => exact absurd rfl hleft
  | completed o phase answer => exact ⟨o, rfl, answer, rfl⟩
  | reopened phase | dismissed phase => exact absurd phase hterminal
  | opened phase | cancelled phase | blocked phase | sent phase =>
    rw [hphase] at phase
    cases phase

/-- The calls that only open and close the dialog. -/
def Call.shows : Call → Bool
  | .reopen | .cancel | .dismiss => true
  | .confirm _ | .complete _ => false

/-- A call that `shows` neither enters nor leaves `.sending`, and ends no attempt. -/
theorem Move.of_shows (h : Move d c report d') (hc : c.shows = true) :
    (d'.phase = .sending ↔ d.phase = .sending) ∧
    (d'.phase.isTerminal = true → d.phase.isTerminal = true) := by
  cases h with
  | refused => exact ⟨Iff.rfl, id⟩
  | opened phase | cancelled phase => exact ⟨by simp [phase], nofun⟩
  | reopened phase | dismissed phase =>
    refine ⟨⟨nofun, fun hsending => ?_⟩, nofun⟩
    rw [hsending] at phase
    cases phase
  | blocked | sent | completed => cases hc

/-! ## What holds after any calls -/

/-- The outcomes that belong to each phase. -/
inductive Coherent : Dialog → Prop
  /-- An idle dialog may still hold the outcome of an ended attempt. -/
  | idle (outcome : Option Outcome) (ended : ∀ o ∈ outcome, o.status ≠ .pending) :
    Coherent ⟨.idle, outcome⟩
  | confirming : Coherent ⟨.confirming, none⟩
  | blocked : Coherent ⟨.blocked, some refusal⟩
  | sending : Coherent ⟨.sending, some .pending⟩
  | ended (o : Outcome) (answer : o.IsAnswer) : Coherent ⟨.ofStatus o.status, some o⟩

theorem Coherent.not_pending (h : Coherent d) (hphase : d.phase ≠ .sending) :
    ∀ o ∈ d.outcome, o.status ≠ .pending := by
  cases h with
  | idle outcome ended => exact ended
  | confirming => nofun
  | blocked =>
    rintro _ ⟨⟩
    nofun
  | sending => exact absurd rfl hphase
  | ended o answer =>
    rintro _ ⟨⟩
    rcases answer with answer | answer | answer <;> rw [answer] <;> nofun

/-- A `Move` keeps `Coherent`. -/
theorem Coherent.move (hd : Coherent d) (h : Move d c report d') : Coherent d' := by
  cases h with
  | refused => exact hd
  | opened | reopened => exact .confirming
  | cancelled phase => exact .idle _ (hd.not_pending (by rw [phase]; nofun))
  | dismissed phase =>
    refine .idle _ (hd.not_pending fun hsending => ?_)
    rw [hsending] at phase
    cases phase
  | blocked => exact .blocked
  | sent => exact .sending
  | completed o phase answer => exact .ended o answer

/-- After any calls the dialog is `Coherent`. -/
theorem coherent_run (calls : List Call) : Coherent (fresh.run calls) := by
  induction calls using List.reverseRecOn with
  | nil => exact .idle none nofun
  | append_singleton calls c ih =>
    rw [run_concat]
    exact ih.move (move_call _ c)

/-- `Coherent`, phase by phase. -/
theorem Coherent.outcome_of_phase (h : Coherent d) :
    match d.phase with
    | .idle => ∀ o ∈ d.outcome, o.status ≠ .pending
    | .confirming => d.outcome = none
    | .blocked => d.outcome = some ⟨.blocked, none, "automation locked (fail-closed)"⟩
    | .sending => d.outcome = some .pending
    | .succeeded => ∃ o, d.outcome = some o ∧ o.status = .success
    | .failed => ∃ o, d.outcome = some o ∧ o.status = .failed
    | .errored => ∃ o, d.outcome = some o ∧ o.status = .error := by
  cases h with
  | idle outcome ended => exact ended
  | confirming | blocked | sending => rfl
  | ended o answer =>
    rcases answer with answer | answer | answer <;> rw [answer] <;> exact ⟨o, rfl, answer⟩

/-- After any calls, `outcome` is `none` or not pending in `.idle`, `none` in `.confirming`, pending
in `.sending`, and otherwise one with the status of the phase. The next call follows `canBecome`, or
is refused and changes nothing. -/
theorem phase_fits_outcome (calls : List Call) (c : Call) :
    let d := fresh.run calls
    let report := (d.call c).1
    let d' := (d.call c).2
    (match d.phase with
      | .idle => ∀ o ∈ d.outcome, o.status ≠ .pending
      | .confirming => d.outcome = none
      | .blocked => d.outcome = some ⟨.blocked, none, "automation locked (fail-closed)"⟩
      | .sending => d.outcome = some .pending
      | .succeeded => ∃ o, d.outcome = some o ∧ o.status = .success
      | .failed => ∃ o, d.outcome = some o ∧ o.status = .failed
      | .errored => ∃ o, d.outcome = some o ∧ o.status = .error) ∧
    (report.accepts = true ∧ Follows c d.phase d'.phase ∨ report.accepts = false ∧ d' = d) ∧
    (∀ o, c = .complete o → (report.accepts = true ↔ d.phase = .sending ∧ o.IsAnswer)) ∧
    (d.phase = .sending → d' ≠ d →
      ∃ o, c = .complete o ∧ o.IsAnswer ∧ d' = ⟨.ofStatus o.status, some o⟩) := by
  intro d report d'
  have hmove : Move d c report d' := move_call d c
  refine ⟨(coherent_run calls).outcome_of_phase, hmove.allowed, ?_, hmove.of_sending⟩
  rintro o rfl
  constructor
  · intro haccepts
    obtain ⟨hphase, hanswer, -⟩ := hmove.of_complete haccepts
    exact ⟨hphase, hanswer⟩
  · rintro ⟨hphase, hanswer⟩
    exact congrArg Prod.fst (complete_of_sending hphase hanswer)

end Interlock.Dialog

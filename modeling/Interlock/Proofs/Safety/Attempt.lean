import Interlock.Console
import Interlock.Safety.Dispatch

/-!
# One attempt, operation by operation

What each operation of `Dialog` and `Dispatch` comes to, by the phase in which the dialog stands.
The rest of the theory cites these equations and opens none of the operations.

* `begin_of_locked`, `begin_of_unlocked`, `begin_of_ne`: `Dispatch.begin` is blocked, sends, or is
  ignored.
* `confirm_of_locked`, `confirm_of_unlocked`, `confirm_of_ne`: the same for `Dialog.confirm` and
  `Dispatch.confirm`.
* `complete_of_sending`, `complete_of_ne`: `complete` ends the attempt that is under way and no
  other.
* `isAnswer_send`: the outcome of `send` is an answer, whatever becomes of the two posts.
* `send_of_missing`, `send_of_found`: what `send` posts, and which reply decides.
* `exists_dialogKey_eq`: what the keys of the dialog can do.
* `press_of_sending`, `press_eq_confirmKill`, `phase_press_ne_sending`: what keys cannot do.
-/

namespace Interlock

/-! ## Outcomes that end an attempt -/

namespace Outcome

/-- The outcome of a request that was sent: `success`, `failed` or `error`. -/
def IsAnswer (o : Outcome) : Prop := o.status = .success ∨ o.status = .failed ∨ o.status = .error

theorem IsAnswer.ne_blocked {o : Outcome} (h : o.IsAnswer) : o ≠ .ofError .blocked := by
  rintro rfl
  rcases h with h | h | h <;> cases h

theorem isAnswer_ofReply (r : Reply) : (ofReply r).IsAnswer := by
  unfold ofReply
  split
  · split
    · exact .inr (.inr rfl)
    · exact .inl rfl
  · exact .inr (.inl rfl)

/-- `ofPosted` is an answer, whatever became of the request. -/
theorem isAnswer_ofPosted (p : Posted) : (ofPosted p).IsAnswer := by
  cases p with
  | answered reply => exact isAnswer_ofReply reply
  | failed reason => exact .inr (.inr rfl)

end Outcome

/-! ## The dialog -/

namespace Dialog

/-- Outside `.confirming`, `confirm` is ignored. -/
theorem confirm_of_ne {d : Dialog} (locked : Bool) (h : d.phase ≠ .confirming) :
    d.confirm locked = (.ignored, d) := by
  unfold confirm
  rw [if_pos (by simpa using h)]

/-- A closed gate makes `confirm` blocked. -/
theorem confirm_of_locked {d : Dialog} (h : d.phase = .confirming) :
    d.confirm true = (.blocked (.ofError .blocked), ⟨.blocked, some (.ofError .blocked)⟩) := by
  obtain ⟨phase, outcome⟩ := d
  subst h
  rfl

/-- An open gate makes `confirm` send. -/
theorem confirm_of_unlocked {d : Dialog} (h : d.phase = .confirming) :
    d.confirm false = (.send, ⟨.sending, some .pending⟩) := by
  obtain ⟨phase, outcome⟩ := d
  subst h
  rfl

/-- Outside `.sending`, `complete` refuses every outcome. -/
theorem complete_of_ne {d : Dialog} (o : Outcome) (h : d.phase ≠ .sending) :
    d.complete o = (false, d) := by
  unfold complete
  rw [if_pos (by simpa using h)]

/-- In `.sending`, `complete` takes an answer and goes to the phase of its status. -/
theorem complete_of_sending {d : Dialog} {o : Outcome} (h : d.phase = .sending) (ho : o.IsAnswer) :
    d.complete o = (true, ⟨.ofStatus o.status, some o⟩) := by
  obtain ⟨phase, outcome⟩ := d
  subst h
  rcases ho with ho | ho | ho <;> simp [complete, goTo, ho, DialogPhase.ofStatus,
    DialogPhase.canBecome]

theorem ofStatus_ne_sending {o : Outcome} (ho : o.IsAnswer) :
    DialogPhase.ofStatus o.status ≠ .sending := by
  rcases ho with ho | ho | ho <;> rw [ho] <;> decide

/-- `reopen` leads to `.confirming` unless an attempt is under way, `cancel` from `.confirming` to
`.idle`, `dismiss` from a terminal phase to `.idle`. -/
theorem phase_operator (d : Dialog) :
    d.reopen.2.phase = (if d.phase = .idle ∨ d.phase.isTerminal then .confirming else d.phase) ∧
    d.cancel.2.phase = (if d.phase = .confirming then .idle else d.phase) ∧
    d.dismiss.2.phase = (if d.phase.isTerminal then .idle else d.phase) := by
  obtain ⟨phase, outcome⟩ := d
  cases phase <;> exact ⟨rfl, rfl, rfl⟩

end Dialog

/-! ## The dispatcher -/

namespace Dispatch

/-- Outside `.confirming`, `begin` is ignored. -/
theorem begin_of_ne {d : Dialog} (locked : Bool) (h : d.phase ≠ .confirming) :
    begin locked d = (.ignored, d, []) := by
  unfold begin
  rw [Dialog.confirm_of_ne locked h]

/-- A closed gate makes `begin` blocked, with a refresh of the executor. -/
theorem begin_of_locked {d : Dialog} (h : d.phase = .confirming) :
    begin true d =
      (.blocked (.ofError .blocked), ⟨.blocked, some (.ofError .blocked)⟩, refreshes) := by
  unfold begin
  rw [Dialog.confirm_of_locked h]

/-- An open gate makes `begin` send. -/
theorem begin_of_unlocked {d : Dialog} (h : d.phase = .confirming) :
    begin false d = (.send, ⟨.sending, some .pending⟩, []) := by
  unfold begin
  rw [Dialog.confirm_of_unlocked h]

/-- The outcome of `send` is an answer. -/
theorem isAnswer_send (kill lock : Posted) : (send kill lock).1.IsAnswer := by
  unfold send
  split
  · exact Outcome.isAnswer_ofPosted lock
  · exact Outcome.isAnswer_ofPosted kill

theorem posts_send_ne_nil (kill lock : Posted) : (send kill lock).2 ≠ [] := by
  unfold send
  split <;> simp

/-- After a 404 of the kill endpoint, `send` posts the lock endpoint, which decides. -/
theorem send_of_missing {reply : Reply} (lock : Posted) (h : reply.status = 404) :
    send (.answered reply) lock = (.ofPosted lock, [.kill, .lock]) := by
  have hfalls : fallsBack (.answered reply) = true := beq_iff_eq.mpr h
  unfold send
  rw [if_pos hfalls]

/-- Without a 404, `send` posts the kill endpoint only. -/
theorem send_of_found {kill : Posted} (lock : Posted)
    (h : ∀ reply, kill = .answered reply → reply.status ≠ 404) :
    send kill lock = (.ofPosted kill, [.kill]) := by
  have hstays : fallsBack kill ≠ true := by
    cases kill with
    | answered reply => exact fun hstatus => h reply rfl (beq_iff_eq.mp hstatus)
    | failed reason => exact Bool.false_ne_true
  unfold send
  rw [if_neg hstays]

/-- Outside `.confirming`, `Dispatch.confirm` does nothing. -/
theorem confirm_of_ne {d : Dialog} (locked : Bool) (kill lock : Posted)
    (h : d.phase ≠ .confirming) : confirm locked kill lock d = ⟨none, d, [], []⟩ := by
  unfold confirm
  rw [begin_of_ne locked h]

/-- A closed gate: `Dispatch.confirm` posts nothing. -/
theorem confirm_of_locked {d : Dialog} (kill lock : Posted) (h : d.phase = .confirming) :
    confirm true kill lock d = ⟨some (.ofError .blocked),
      ⟨.blocked, some (.ofError .blocked)⟩, [], refreshes⟩ := by
  unfold confirm
  rw [begin_of_locked h]

/-- An open gate: `Dispatch.confirm` ends with the outcome of `send`. -/
theorem confirm_of_unlocked {d : Dialog} (kill lock : Posted) (h : d.phase = .confirming) :
    confirm false kill lock d = ⟨some (send kill lock).1,
      ⟨.ofStatus (send kill lock).1.status, some (send kill lock).1⟩, (send kill lock).2,
      refreshes⟩ := by
  have hcomplete : Dialog.complete (send kill lock).1 ⟨.sending, some .pending⟩ = _ :=
    Dialog.complete_of_sending rfl (isAnswer_send kill lock)
  unfold confirm
  rw [begin_of_unlocked h]
  simp only [finish, hcomplete, List.nil_append]

end Dispatch

/-! ## Keys -/

namespace Console

/-- `dialogKey` closes the dialog or leaves it as it is, changes nothing else of the console, and
commands nothing unless it confirms. -/
theorem exists_dialogKey_eq (c : Console) (action : KeyAction) :
    ∃ command d, c.dialogKey action = (command, { c with dialog := d }) ∧
      (command = .none ∨ command = .confirmKill) ∧
      (d = c.dialog ∨ d = c.dialog.cancel.2 ∨ d = c.dialog.dismiss.2) := by
  have hdismiss (closes : Bool) : ∃ d,
      (if closes then { c with dialog := c.dialog.dismiss.2 } else c) = { c with dialog := d } ∧
      (d = c.dialog ∨ d = c.dialog.cancel.2 ∨ d = c.dialog.dismiss.2) := by
    cases closes with
    | true => exact ⟨_, rfl, .inr (.inr rfl)⟩
    | false => exact ⟨c.dialog, rfl, .inl rfl⟩
  unfold dialogKey
  split
  · exact ⟨_, c.dialog, rfl, .inr rfl, .inl rfl⟩
  · exact ⟨_, _, rfl, .inl rfl, .inr (.inl rfl)⟩
  · exact ⟨_, c.dialog, rfl, .inl rfl, .inl rfl⟩
  · obtain ⟨d, hd, hcloses⟩ := hdismiss (c.dialog.phase.isTerminal)
    exact ⟨_, d, by rw [hd], .inl rfl, hcloses⟩
  · obtain ⟨d, hd, hcloses⟩ := hdismiss (c.dialog.phase.isTerminal)
    exact ⟨_, d, by rw [hd], .inl rfl, hcloses⟩
  · exact ⟨_, c.dialog, rfl, .inl rfl, .inl rfl⟩

/-- In `.sending`, `press` changes nothing and commands nothing. -/
theorem press_of_sending {c : Console} (action : KeyAction) (h : c.dialog.phase = .sending) :
    c.press action = (.none, c) := by
  unfold press
  rw [if_pos (by simp [Dialog.isVisible, h])]
  unfold dialogKey
  rw [h]

/-- `press` commands `.confirmKill` only for `.confirm` in `.confirming`, and then changes nothing.
-/
theorem press_eq_confirmKill {c : Console} {action : KeyAction}
    (h : (c.press action).1 = .confirmKill) :
    c.dialog.phase = .confirming ∧ action = .confirm ∧ (c.press action).2 = c := by
  unfold press at h ⊢
  by_cases hvisible : c.dialog.isVisible = true
  · rw [if_pos hvisible] at h ⊢
    unfold dialogKey at h ⊢
    cases hphase : c.dialog.phase with
    | confirming =>
      rw [hphase] at h
      cases action with
      | confirm => exact ⟨rfl, rfl, rfl⟩
      | _ => cases h
    | _ =>
      rw [hphase] at h
      cases action <;> cases h
  · -- while no dialog is shown the key acts on the cards, where none confirms
    rw [if_neg hvisible] at h
    cases action <;> simp [cardKey] at h

/-- No `press` leads to `.sending`. -/
theorem phase_press_ne_sending {c : Console} (action : KeyAction) (h : c.dialog.phase ≠ .sending) :
    (c.press action).2.dialog.phase ≠ .sending := by
  have hstays (q : Prop) [Decidable q] {p : DialogPhase} (hp : p ≠ .sending) :
      (if q then p else c.dialog.phase) ≠ .sending := by
    split
    · exact hp
    · exact h
  obtain ⟨hreopen, hcancel, hdismiss⟩ := c.dialog.phase_operator
  have hopen : c.openDialog.dialog.phase ≠ .sending := by
    show c.dialog.reopen.2.phase ≠ .sending
    rw [hreopen]
    exact hstays _ nofun
  unfold press
  split
  · -- the keys of the dialog can only close it
    obtain ⟨command, d, hkey, -, hcloses⟩ := c.exists_dialogKey_eq action
    rw [hkey]
    rcases hcloses with rfl | rfl | rfl
    · exact h
    · rw [hcancel]
      exact hstays _ nofun
    · rw [hdismiss]
      exact hstays _ nofun
  · -- of the keys of the cards two can open it, and no other touches it
    cases action with
    | openKill => exact hopen
    | openLock =>
      show (if c.verdict.lockRecommended then c.openDialog else c).dialog.phase ≠ .sending
      split
      · exact hopen
      · exact h
    | _ => exact h

end Console

end Interlock

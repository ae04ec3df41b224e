import Interlock.Safety.Outcome

/-!
# The confirmation dialog

The dialog is idle, asks for confirmation, is blocked or sends, and shows how the attempt ended
until it is dismissed. Whether automation is locked is asked when the operator confirms, not when
the dialog opens. While a request is under way nothing but its outcome changes the dialog.
-/

namespace Interlock

/-- Where the dialog stands. -/
inductive DialogPhase
  | idle
  | confirming
  | blocked
  | sending
  | succeeded
  | failed
  | errored
  deriving DecidableEq, Repr, Inhabited

namespace DialogPhase

/-- The phases in order. -/
def all : List DialogPhase :=
  [.idle, .confirming, .blocked, .sending, .succeeded, .failed, .errored]

/-- The word for a phase. -/
def text : DialogPhase → String
  | .idle => "IDLE"
  | .confirming => "CONFIRMING"
  | .blocked => "BLOCKED"
  | .sending => "SENDING"
  | .succeeded => "SUCCEEDED"
  | .failed => "FAILED"
  | .errored => "ERRORED"

/-- Whether an attempt has ended in this phase. -/
def isTerminal : DialogPhase → Bool
  | .blocked => true
  | .succeeded => true
  | .failed => true
  | .errored => true
  | _ => false

/-- Whether the dialog may go from one phase to another. -/
def canBecome : DialogPhase → DialogPhase → Bool
  | .idle, .confirming => true
  | .confirming, .blocked => true
  | .confirming, .sending => true
  | .confirming, .idle => true
  | .sending, .succeeded => true
  | .sending, .failed => true
  | .sending, .errored => true
  | p, .idle => p.isTerminal
  | _, _ => false

/-- The phase that shows an outcome. -/
def ofStatus : ActionStatus → DialogPhase
  | .pending => .sending
  | .success => .succeeded
  | .failed => .failed
  | .error => .errored
  | .blocked => .blocked

end DialogPhase

/-- The dialog: its phase, and the outcome of the current or latest attempt. -/
structure Dialog where
  phase : DialogPhase
  outcome : Option Outcome
  deriving DecidableEq, Repr, Inhabited

/-- What a confirmation comes to. -/
inductive Confirmation
  /-- The gate was closed; nothing is sent. -/
  | blocked (outcome : Outcome)
  /-- The gate was open; one request is to be sent. -/
  | send
  /-- The dialog did not ask. -/
  | ignored
  deriving DecidableEq, Repr, Inhabited

namespace Dialog

/-- The dialog before any attempt. -/
def fresh : Dialog := ⟨.idle, none⟩

/-- Whether a request is under way. -/
def isBusy (d : Dialog) : Bool := d.phase == .sending

/-- Whether the prompt is on the screen. -/
def isPromptOpen (d : Dialog) : Bool := d.phase == .confirming || d.phase == .sending

/-- Whether the dialog is on the screen, asking or showing an outcome. -/
def isVisible (d : Dialog) : Bool := d.phase != .idle

/-- Goes to a phase if the dialog may. -/
def goTo (target : DialogPhase) (d : Dialog) : Bool × Dialog :=
  if d.phase.canBecome target then (true, { d with phase := target }) else (false, d)

/-- Opens the dialog, from idle or from an ended attempt, whose outcome is forgotten. -/
def reopen (d : Dialog) : Bool × Dialog :=
  let d := if d.phase.isTerminal then (d.goTo .idle).2 else d
  match d.goTo .confirming with
  | (true, d) => (true, { d with outcome := none })
  | (false, d) => (false, d)

/-- Closes the prompt; refused while a request is under way. -/
def cancel (d : Dialog) : Bool × Dialog :=
  if d.phase = .confirming then d.goTo .idle else (false, d)

/-- Closes an ended attempt; its outcome stays readable. -/
def dismiss (d : Dialog) : Bool × Dialog :=
  if d.phase.isTerminal then d.goTo .idle else (false, d)

/-- Resolves a confirmation with the lock as it is at this moment. -/
def confirm (locked : Bool) (d : Dialog) : Confirmation × Dialog :=
  if d.phase != .confirming then (.ignored, d)
  else if locked then
    let outcome := Outcome.ofError .blocked
    (.blocked outcome, { (d.goTo .blocked).2 with outcome := some outcome })
  else (.send, { (d.goTo .sending).2 with outcome := some .pending })

/-- Records the outcome of the request that is under way. -/
def complete (outcome : Outcome) (d : Dialog) : Bool × Dialog :=
  if d.phase != .sending then (false, d)
  else
    match d.goTo (.ofStatus outcome.status) with
    | (true, d) => (true, { d with outcome := some outcome })
    | (false, d) => (false, d)

end Dialog

end Interlock

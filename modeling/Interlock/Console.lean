import Interlock.Console.Key
import Interlock.Safety.Dialog
import Interlock.Safety.Verdict

/-!
# The operator's console

The console shows the state of the sources as it was last synchronised, holds the dialog, and knows
which card is selected and which cards show their raw document. While the dialog is on the screen,
keys act on the dialog and on nothing else.
-/

namespace Interlock

/-- The place of a source in the order of the cards. -/
def Source.index : Source → Nat
  | .intent => 0
  | .chain => 1
  | .executor => 2
  | .risk => 3

/-- What a key makes others do. -/
inductive ConsoleCommand
  | none
  | quit
  | refresh
  | confirmKill
  deriving DecidableEq, Repr, Inhabited

/-- The state of the console. -/
structure Console where
  /-- The state of the sources that is shown, and the verdict on it. -/
  snapshot : Snapshot
  verdict : Verdict
  dialog : Dialog
  /-- The place of the selected card among `Source.all`. -/
  index : Nat
  /-- Which cards show their raw document. -/
  raw : Source → Bool
  help : Bool
  running : Bool

namespace Console

/-- The console at its start. -/
def fresh : Console where
  snapshot := .fresh
  verdict := .evaluate .fresh
  dialog := .fresh
  index := 0
  raw _ := false
  help := false
  running := true

instance : Inhabited Console := ⟨fresh⟩

/-- Shows a state of the sources. -/
def display (s : Snapshot) (c : Console) : Console :=
  { c with snapshot := s, verdict := .evaluate s }

/-- Opens the dialog; the help goes away. -/
def openDialog (c : Console) : Console :=
  { c with help := false, dialog := c.dialog.reopen.2 }

/-- The selected card. -/
def selected (c : Console) : Source :=
  Source.all.get ⟨c.index % Source.all.length, Nat.mod_lt _ (Nat.zero_lt_succ _)⟩

/-- Selects the card after the selected one; the first one follows the last. -/
def nextCard (c : Console) : Console := { c with index := (c.index + 1) % Source.all.length }

/-- Selects the card before the selected one. -/
def prevCard (c : Console) : Console :=
  { c with index := if c.index = 0 then Source.all.length - 1 else c.index - 1 }

/-- Turns the raw document of the selected card on or off. -/
def toggleRaw (c : Console) : Console :=
  { c with raw := fun k => if k = c.selected then !c.raw k else c.raw k }

/-- A key while the dialog is on the screen. -/
def dialogKey (action : KeyAction) (c : Console) : ConsoleCommand × Console :=
  match c.dialog.phase, action with
  | .confirming, .confirm => (.confirmKill, c)
  | .confirming, .cancel => (.none, { c with dialog := c.dialog.cancel.2 })
  | .sending, _ => (.none, c)
  | phase, .confirm =>
    (.none, if phase.isTerminal then { c with dialog := c.dialog.dismiss.2 } else c)
  | phase, .cancel =>
    (.none, if phase.isTerminal then { c with dialog := c.dialog.dismiss.2 } else c)
  | _, _ => (.none, c)

/-- A key while the cards have the screen. -/
def cardKey (action : KeyAction) (c : Console) : ConsoleCommand × Console :=
  match action with
  | .quit => (.quit, { c with running := false })
  | .refresh => (.refresh, c)
  | .openKill => (.none, c.openDialog)
  | .openLock => (.none, if c.verdict.lockRecommended then c.openDialog else c)
  | .nextCard => (.none, c.nextCard)
  | .prevCard => (.none, c.prevCard)
  | .toggleRaw => (.none, c.toggleRaw)
  | .help => (.none, { c with help := !c.help })
  | .cancel => (.none, { c with help := false })
  | .confirm => (.none, c)
  | .none => (.none, c)

/-- A key. -/
def press (action : KeyAction) (c : Console) : ConsoleCommand × Console :=
  if c.dialog.isVisible then c.dialogKey action else c.cardKey action

end Console

end Interlock

import Interlock.Status.Reported

/-!
# The risk regime

The regime in force, the one aimed at, and why they differ.
-/

namespace Interlock

/-- The status of the risk regime. -/
structure RiskStatus where
  currentRegime : Reported String
  targetRegime : Reported String
  cooldownMs : Nat
  reasons : List String
  missing : List String
  deriving DecidableEq, Repr

namespace RiskStatus

/-- The status when nothing is reported. -/
def unknown : RiskStatus := ⟨none, none, 0, [], []⟩

instance : Inhabited RiskStatus := ⟨unknown⟩

open Reading in
/-- Reads the content of a payload. -/
def ofContent (j : Json) : RiskStatus where
  currentRegime := text? (field ["current_regime", "currentRegime"] j)
  targetRegime := text? (field ["target_regime", "targetRegime"] j)
  cooldownMs := (count? (field ["cooldown_remaining_ms", "cooldownRemainingMs"] j)).getD 0
  reasons := texts (field ["reasons"] j)
  missing := texts (field ["missing"] j)

/-- Reads a payload; without one nothing is known. -/
def ofPayload : Option Json → RiskStatus
  | none => unknown
  | some j => ofContent (Reading.content j)

/-- The status as a document. -/
def toJson (r : RiskStatus) : Json := .ofMembers [
  ("current_regime", r.currentRegime.toJson .string),
  ("target_regime", r.targetRegime.toJson .string),
  ("cooldown_remaining_ms", .ofNat r.cooldownMs),
  ("reasons", .array (r.reasons.map .string)),
  ("missing", .array (r.missing.map .string))]

end RiskStatus

end Interlock

import Interlock.Status.Chain
import Interlock.Status.Executor
import Interlock.Status.Intent
import Interlock.Status.Risk

/-!
# The four sources

Each source is polled on its own and fails on its own. A source has a type of record, a reader that
makes a record of any payload, and the record of a source that reports nothing.
-/

namespace Interlock

/-- A source of status. -/
inductive Source
  | intent
  | chain
  | executor
  | risk
  deriving DecidableEq, Repr, Inhabited

namespace Source

/-- The sources in the order in which they are shown and selected. -/
def all : List Source := [.intent, .chain, .executor, .risk]

/-- The title of a source's card. -/
def title : Source → String
  | .intent => "Intent"
  | .chain => "Audit Chain"
  | .executor => "Executor"
  | .risk => "Risk Regime"

/-- The key of a source in a report. -/
def key : Source → String
  | .intent => "intent"
  | .chain => "chain"
  | .executor => "executor"
  | .risk => "risk"

/-- The path of a source's status. -/
def path : Source → String
  | .intent => "/api/intent/latest"
  | .chain => "/api/audit/chain/status"
  | .executor => "/api/executor/status"
  | .risk => "/api/risk/regime"

/-- The type of a source's record. -/
abbrev Record : Source → Type
  | .intent => IntentStatus
  | .chain => ChainStatus
  | .executor => ExecutorStatus
  | .risk => RiskStatus

/-- The record of a payload. -/
def read : (k : Source) → Option Json → k.Record
  | .intent => IntentStatus.ofPayload
  | .chain => ChainStatus.ofPayload
  | .executor => ExecutorStatus.ofPayload
  | .risk => RiskStatus.ofPayload

/-- The record as a document. -/
def recordJson : (k : Source) → k.Record → Json
  | .intent => IntentStatus.toJson
  | .chain => ChainStatus.toJson
  | .executor => ExecutorStatus.toJson
  | .risk => RiskStatus.toJson

/-- The record of a source that reports nothing. -/
def unknown (k : Source) : k.Record := k.read none

theorem mem_all (k : Source) : k ∈ all := by cases k <;> decide

end Source

end Interlock

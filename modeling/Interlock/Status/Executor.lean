import Interlock.Status.Reported

/-!
# The executor's status

What the executor reports about itself. A switch that is not reported is off and a streak that is
not reported is zero; every other field may stay unknown.
-/

namespace Interlock

/-- The executor's status. The HTTP code is the one that the executor last saw itself. -/
structure ExecutorStatus where
  killSwitch : Bool
  failStreak : Nat
  lastHttpCode : Reported Nat
  lastEventId : Reported String
  sourcePath : Reported String
  tsChecked : Reported String
  deriving DecidableEq, Repr

namespace ExecutorStatus

/-- The status of an executor that reports nothing. -/
def unknown : ExecutorStatus := ⟨false, 0, none, none, none, none⟩

instance : Inhabited ExecutorStatus := ⟨unknown⟩

open Reading in
/-- Reads the content of a payload. -/
def ofContent (j : Json) : ExecutorStatus where
  killSwitch := (flag? (field ["kill_switch", "killSwitch"] j)).getD false
  failStreak := (count? (field ["fail_streak", "failStreak"] j)).getD 0
  lastHttpCode := code? (field ["last_http_code", "lastHttpCode"] j)
  lastEventId := text? (field ["last_event_id", "lastEventId"] j)
  sourcePath := text? (field ["source_path", "sourcePath"] j)
  tsChecked := text? (field ["ts_checked_iso", "tsCheckedIso"] j)

/-- Reads a payload; without one nothing is known. -/
def ofPayload : Option Json → ExecutorStatus
  | none => unknown
  | some j => ofContent (Reading.content j)

/-- The status as a document. -/
def toJson (e : ExecutorStatus) : Json := .ofMembers [
  ("kill_switch", .bool e.killSwitch),
  ("fail_streak", .ofNat e.failStreak),
  ("last_http_code", e.lastHttpCode.toJson .ofNat),
  ("last_event_id", e.lastEventId.toJson .string),
  ("source_path", e.sourcePath.toJson .string),
  ("ts_checked_iso", e.tsChecked.toJson .string)]

end ExecutorStatus

end Interlock

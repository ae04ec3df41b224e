import Interlock.Fetch.Snapshot

/-!
# The safety verdict

What the state of the sources means for automation. The rules fail closed: whenever the executor
has not just been seen to be in order, automation is locked. The first rule that applies decides.

1. The kill switch is on: halted.
2. The executor does not answer, or answers with code zero: degraded.
3. The executor answers with a code from 500 on: degraded.
4. The executor's streak of failures has reached the threshold: degraded.
5. Otherwise all is in order.
-/

namespace Interlock

/-- The level of the safety banner. -/
inductive BannerLevel
  | ok
  | degraded
  | halted
  deriving DecidableEq, Repr, Inhabited

/-- The word for a level. -/
def BannerLevel.text : BannerLevel → String
  | .ok => "OK"
  | .degraded => "DEGRADED"
  | .halted => "HALTED"

/-- The safety banner. -/
structure Banner where
  level : BannerLevel
  message : String
  deriving DecidableEq, Repr, Inhabited

/-- The banner as a document. -/
def Banner.toJson (b : Banner) : Json :=
  .ofMembers [("level", .string b.level.text), ("message", .string b.message)]

/-- The streak of failures from which the executor counts as degraded. -/
def failStreakThreshold : Nat := 2

/-- The end of every message about a lock. -/
def lockedSuffix : String := ": automation locked (fail-closed)"

/-- The banner for an executor with the given status and the code that it was last seen to
answer with. -/
def decideBanner (executor : ExecutorStatus) (code : Option Nat) : Banner :=
  if executor.killSwitch then
    ⟨.halted, "KILL SWITCH ACTIVE: execution halted by design (fail-closed)"⟩
  else
    match code with
    | none => ⟨.degraded, "EXECUTOR API UNREACHABLE" ++ lockedSuffix⟩
    | some 0 => ⟨.degraded, "EXECUTOR API UNREACHABLE" ++ lockedSuffix⟩
    | some c =>
      if 500 ≤ c then
        ⟨.degraded, "EXECUTOR API ERROR (HTTP " ++ Text.ofNat c ++ ")" ++ lockedSuffix⟩
      else if failStreakThreshold ≤ executor.failStreak then
        ⟨.degraded, "EXECUTOR DEGRADED (fail_streak=" ++ Text.ofNat executor.failStreak ++ ")" ++
          lockedSuffix⟩
      else ⟨.ok, ""⟩

/-- Whether a banner locks automation. -/
def Banner.locks (b : Banner) : Bool := b.level != .ok

/-- Whether the operator is advised to lock. The advice opens and closes nothing. -/
def recommendsLock (executor : ExecutorStatus) (intent : IntentStatus) : Bool :=
  failStreakThreshold ≤ executor.failStreak || 0 < intent.denyCount || 0 < intent.evidenceBadCount

/-- All that is derived from one state. -/
structure Verdict where
  banner : Banner
  automationLocked : Bool
  lockRecommended : Bool
  denyCount : Nat
  evidenceBadCount : Nat
  deriving DecidableEq, Repr, Inhabited

namespace Verdict

/-- The verdict on a state. -/
def evaluate (s : Snapshot) : Verdict :=
  let executor : ExecutorStatus := s.executor.canonical
  let intent : IntentStatus := s.intent.canonical
  let banner := decideBanner executor s.observedExecutorCode
  { banner := banner
    automationLocked := banner.locks
    lockRecommended := recommendsLock executor intent
    denyCount := intent.denyCount
    evidenceBadCount := intent.evidenceBadCount }

/-- The verdict as a document. -/
def toJson (v : Verdict) : Json := .ofMembers [
  ("banner", v.banner.toJson),
  ("automation_locked", .bool v.automationLocked),
  ("lock_recommended", .bool v.lockRecommended),
  ("deny_count", .ofNat v.denyCount),
  ("evidence_bad_count", .ofNat v.evidenceBadCount)]

end Verdict

end Interlock

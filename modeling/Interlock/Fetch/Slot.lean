import Interlock.Fetch.Result
import Interlock.Instant

/-!
# The slot of a source

The latest known state of one source. A result that lands replaces the one before it and is never
merged with it; only the latest code survives a fetch without an answer. Several fetches of one
source may be under way at once, and the slot shows fetching until the last of them has landed.
-/

namespace Interlock

/-- Whether a fetch is under way. -/
inductive FetchPhase
  | idle
  | fetching
  deriving DecidableEq, Repr, Inhabited

/-- How the latest fetch ended. -/
inductive FetchOutcome
  | success
  | error
  deriving DecidableEq, Repr, Inhabited

/-- The latest known state of one source, with records of type `α`. -/
structure Slot (α : Type) where
  phase : FetchPhase
  outcome : Option FetchOutcome
  /-- The result that landed last; `none` before the first. -/
  result : Option FetchResult
  canonical : α
  /-- The latest code that was received. -/
  lastHttpCode : Option Nat
  updatedAt : Option Instant
  /-- How many fetches are under way. -/
  inFlight : Nat
  deriving Repr

namespace Slot

variable {α : Type}

/-- The slot of a source that was never fetched. -/
def fresh (unknown : α) : Slot α := ⟨.idle, none, none, unknown, none, none, 0⟩

/-- A fetch begins. -/
def begin (s : Slot α) : Slot α := { s with inFlight := s.inFlight + 1, phase := .fetching }

/-- How a result ends a fetch. -/
def outcomeOf (r : FetchResult) : FetchOutcome :=
  if r.isSuccess && r.payload.isSome then .success else .error

/-- A result lands. -/
def settle (r : FetchResult) (canonical : α) (now : Instant) (s : Slot α) : Slot α where
  phase := if s.inFlight - 1 = 0 then .idle else s.phase
  outcome := some (outcomeOf r)
  result := some r
  canonical := canonical
  lastHttpCode := r.status.or s.lastHttpCode
  updatedAt := some now
  inFlight := s.inFlight - 1

/-- Whether the latest fetch brought a record. -/
def healthy (s : Slot α) : Bool := s.outcome == some .success

/-- What was wrong with the latest result. -/
def error (s : Slot α) : Option String := s.result.bind FetchResult.error

/-- The latest document, usable or not. -/
def payload (s : Slot α) : Option Json := s.result.bind FetchResult.payload

end Slot

end Interlock

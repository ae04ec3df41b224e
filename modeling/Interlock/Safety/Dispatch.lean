import Interlock.Safety.Dialog
import Interlock.Safety.Verdict
import Interlock.Text.Quoted

/-!
# Sending a kill request

A kill request is issued only by `begin`, which reads the gate at that moment, and it is the only
thing that posts. It posts the kill endpoint once, and the lock endpoint once if the first answer is
that there is no such endpoint; nothing is tried again. Whenever an attempt ends, the executor is
asked to be refreshed.
-/

namespace Interlock

/-- An endpoint that takes actions. -/
inductive ActionEndpoint
  | kill
  | lock
  deriving DecidableEq, Repr

/-- The path of an action endpoint. -/
def ActionEndpoint.path : ActionEndpoint → String
  | .kill => "/api/executor/kill"
  | .lock => "/api/executor/lock"

/-- What became of a request to an action endpoint. -/
inductive Posted
  | answered (reply : Reply)
  | failed (reason : String)
  deriving DecidableEq, Repr

/-- A wish for a fetch outside the regular ones. -/
inductive RefreshRequest
  | all
  | source (k : Source)
  deriving DecidableEq, Repr

namespace Outcome

/-- The outcome of an attempt by what became of its last request. -/
def ofPosted : Posted → Outcome
  | .answered reply => ofReply reply
  | .failed reason => ofError (.transport reason)

end Outcome

namespace Dispatch

/-- The code that says that an endpoint does not exist. -/
def notFound : Nat := 404

/-- Whether the first answer says that there is no kill endpoint. -/
def fallsBack : Posted → Bool
  | .answered reply => reply.status == notFound
  | .failed _ => false

/-- Sends a request, given what becomes of each of the two requests if it is made: the outcome, and
the endpoints that are posted, in order. -/
def send (kill lock : Posted) : Outcome × List ActionEndpoint :=
  if fallsBack kill then (.ofPosted lock, [.kill, .lock]) else (.ofPosted kill, [.kill])

/-- The refreshes that end an attempt. -/
def refreshes : List RefreshRequest := [.source .executor]

/-- Resolves a confirmation with the gate as it is now: the answer, the dialog and the refreshes
that are asked for. -/
def begin (locked : Bool) (d : Dialog) : Confirmation × Dialog × List RefreshRequest :=
  match d.confirm locked with
  | (.blocked outcome, d) => (.blocked outcome, d, refreshes)
  | (.send, d) => (.send, d, [])
  | (.ignored, d) => (.ignored, d, [])

/-- Records the outcome of a request that was sent: whether the dialog took it, the dialog and the
refreshes that are asked for. -/
def finish (outcome : Outcome) (d : Dialog) : Bool × Dialog × List RefreshRequest :=
  match d.complete outcome with
  | (recorded, d) => (recorded, d, refreshes)

/-- How an issued request is shown, given the addresses it may post. -/
def describe (killUrl lockUrl : String) : String :=
  "KillRequest \x7b kill_url: " ++ Text.quoted killUrl ++ ", lock_url: " ++ Text.quoted lockUrl ++
    " \x7d"

/-- What a confirmation that is carried through comes to. -/
structure Attempt where
  /-- The outcome; none if the dialog did not ask. -/
  outcome : Option Outcome
  dialog : Dialog
  posts : List ActionEndpoint
  refreshes : List RefreshRequest

/-- Resolves a confirmation, sends the request if the gate is open, and records its outcome. -/
def confirm (locked : Bool) (kill lock : Posted) (d : Dialog) : Attempt :=
  match begin locked d with
  | (.blocked outcome, d, asked) => ⟨some outcome, d, [], asked⟩
  | (.ignored, d, asked) => ⟨none, d, [], asked⟩
  | (.send, d, asked) =>
    let (outcome, posts) := send kill lock
    let (_, d, more) := finish outcome d
    ⟨some outcome, d, posts, asked ++ more⟩

end Dispatch

end Interlock

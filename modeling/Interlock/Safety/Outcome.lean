import Interlock.Json.Printer
import Interlock.Json.Reader
import Interlock.Fetch.Result

/-!
# Outcomes of an attempt to engage the kill switch

An attempt is pending until its request is answered, and then it succeeded, was rejected, or failed
on the way; an attempt that the gate refused is blocked. A success needs a code of success and a
body that is blank or a JSON document.
-/

namespace Interlock

open Text

/-- Where an attempt stands. -/
inductive ActionStatus
  | pending
  | success
  | failed
  | error
  | blocked
  deriving DecidableEq, Repr, Inhabited

/-- The word for a status. -/
def ActionStatus.text : ActionStatus → String
  | .pending => "PENDING"
  | .success => "SUCCESS"
  | .failed => "FAILED"
  | .error => "ERROR"
  | .blocked => "BLOCKED"

/-- What is known of an attempt. -/
structure Outcome where
  status : ActionStatus
  httpCode : Option Nat
  detail : String
  deriving DecidableEq, Repr, Inhabited

/-- Why an attempt did not succeed. -/
inductive ActionError
  /-- The gate was closed. -/
  | blocked
  /-- The server said no. -/
  | rejected (code : Nat) (detail : String)
  /-- There was no usable answer. -/
  | transport (reason : String)
  deriving DecidableEq, Repr

/-- The wording of a failed attempt. -/
def ActionError.message : ActionError → String
  | .blocked => "automation locked (fail-closed)"
  | .rejected code detail => "FAIL (" ++ ofNat code ++ "): " ++ detail
  | .transport reason => "ERROR: " ++ reason

/-- An HTTP answer to an action. -/
structure Reply where
  status : Nat
  body : String
  deriving DecidableEq, Repr

namespace Reply

/-- Whether the code says success. -/
def isSuccess (r : Reply) : Bool := isSuccessCode r.status

/-- The document that the body holds. -/
def json (r : Reply) : Option Json := Json.read? r.body

end Reply

namespace Outcome

/-- The outcome while the request is under way. -/
def pending : Outcome := ⟨.pending, none, "sending..."⟩

/-- The outcome of a failed attempt. -/
def ofError (e : ActionError) : Outcome :=
  match e with
  | .blocked => ⟨.blocked, none, e.message⟩
  | .rejected code _ => ⟨.failed, some code, e.message⟩
  | .transport _ => ⟨.error, none, e.message⟩

/-- The most characters of a server's text that are kept. -/
def detailLimit : Nat := 200

/-- The keys under which a server may explain itself, the first one first. -/
def detailKeys : List String := ["detail", "error", "message"]

/-- The explanation that a document gives: a string as it is, anything else in JSON. -/
def explanation? (j : Json) : Option String :=
  detailKeys.findSome? fun key =>
    match j.member? key with
    | none => none
    | some .null => none
    | some (.string s) => some s
    | some other => some other.compact

/-- What the server says: its explanation or else the body. -/
def serverText (r : Reply) : String :=
  let s := ((r.json.bind explanation?)).getD (trim r.body)
  if s = "" then "(no detail)" else s

/-- The first characters of a text. -/
def truncate (limit : Nat) (s : String) : String := String.ofList (s.toList.take limit)

/-- The outcome of an attempt that was answered. -/
def ofReply (r : Reply) : Outcome :=
  if r.isSuccess then
    if trim r.body != "" && r.json.isNone then
      { ofError (.transport ("unparsable response body (HTTP " ++ ofNat r.status ++ ")")) with
        httpCode := some r.status }
    else ⟨.success, some r.status, "OK (" ++ ofNat r.status ++ ")"⟩
  else ofError (.rejected r.status (truncate detailLimit (serverText r)))

end Outcome

end Interlock

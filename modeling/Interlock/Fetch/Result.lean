import Interlock.Json.Value

/-!
# The result of one fetch

A fetch ends in an answer with a status code, whatever the code, or without any answer. A payload
counts only if the code says success.
-/

namespace Interlock

/-- How a fetch ended. -/
inductive FetchResult
  /-- An answer with its code, its document if there is one, and what is wrong with it. -/
  | received (status : Nat) (payload : Option Json) (error : Option String)
  /-- No answer, and why. -/
  | unreachable (reason : String)
  deriving Repr, Inhabited

/-- The codes of success. -/
def isSuccessCode (code : Nat) : Bool := 200 ≤ code && code < 300

namespace FetchResult

/-- An answer in which nothing is wrong. -/
def answer (status : Nat) (payload : Option Json) : FetchResult := .received status payload none

/-- The result with another description of what is wrong. -/
def withError (message : String) : FetchResult → FetchResult
  | .received status payload _ => .received status payload (some message)
  | .unreachable _ => .unreachable message

/-- The document of the answer. -/
def payload : FetchResult → Option Json
  | .received _ p _ => p
  | .unreachable _ => none

/-- The code of the answer. -/
def status : FetchResult → Option Nat
  | .received c _ _ => some c
  | .unreachable _ => none

/-- Whether there was no answer. -/
def transportFailed : FetchResult → Bool
  | .received .. => false
  | .unreachable _ => true

/-- What is wrong with the result. -/
def error : FetchResult → Option String
  | .received _ _ e => e
  | .unreachable reason => some reason

/-- Whether the code says success. -/
def isSuccess : FetchResult → Bool
  | .received c _ _ => isSuccessCode c
  | .unreachable _ => false

/-- The document, if the code says success. -/
def usablePayload (r : FetchResult) : Option Json := if r.isSuccess then r.payload else none

end FetchResult

/-- The result of a source's latest fetch as a document; a source that was never fetched has no
answer and no failure. -/
def fetchedJson (r : Option FetchResult) : Json :=
  let error := match r.bind FetchResult.error with
    | none => []
    | some e => [("error", Json.string e)]
  .ofMembers ([
    ("payload", .ofOption id (r.bind FetchResult.payload)),
    ("http_status", .ofOption .ofNat (r.bind FetchResult.status)),
    ("transport_failed", .bool (r.any FetchResult.transportFailed))] ++ error)

end Interlock

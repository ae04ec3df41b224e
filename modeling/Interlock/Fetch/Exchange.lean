import Interlock.Json.Reader
import Interlock.Safety.Dispatch

/-!
# Exchanges with the server

What an HTTP exchange, as far as it went, means for a fetch and for an action. A fetch always has a
result: every way in which an exchange can go wrong has its own description. An action counts only
if its whole body arrived. A fetch reads the bytes of a body, an action its text.
-/

namespace Interlock

open Text

/-- Why an exchange broke off. -/
inductive ExchangeFault
  | timeout
  | connect
  | other (reason : String)
  deriving DecidableEq, Repr

/-- The short description of a fault. -/
def ExchangeFault.message : ExchangeFault → String
  | .timeout => "request timed out"
  | .connect => "connection failed"
  | .other reason => reason

/-- An exchange with the server. -/
inductive Exchange
  /-- No answer came. -/
  | failed (fault : ExchangeFault)
  /-- An answer came, but its body broke off. -/
  | cut (status : Nat) (fault : ExchangeFault)
  /-- The whole answer came; `text` is its body, decoded as the answer asks for. -/
  | complete (status : Nat) (body : List UInt8) (text : String)
  deriving DecidableEq, Repr

namespace Exchange

/-- The blank space of ASCII. -/
def isBlankByte (b : UInt8) : Bool := b == 0x20 || b == 9 || b == 10 || b == 12 || b == 13

/-- What an exchange means for a fetch. -/
def toResult : Exchange → FetchResult
  | .failed fault => .unreachable fault.message
  | .cut status fault => .received status none (some fault.message)
  | .complete status body _ =>
    if !isSuccessCode status then .received status none (some ("HTTP " ++ ofNat status))
    else if body.all isBlankByte then .received status none (some "empty body")
    else
      match Json.readBytes body with
      | .ok payload => .received status (some payload) none
      | .error e => .received status none (some ("unparsable body: " ++ e.message))

/-- What an exchange means for an action. -/
def toPosted : Exchange → Posted
  | .failed fault => .failed fault.message
  | .cut _ fault => .failed fault.message
  | .complete status _ text => .answered ⟨status, text⟩

end Exchange

end Interlock

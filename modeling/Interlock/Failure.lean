import Interlock.Json.Error
import Interlock.Settings.Error
import Interlock.Url.Host

/-!
# What stops the program

A fetch that goes wrong is a result like any other and stops nothing. What remains are faults in
the settings, in an address, in a document, in the terminal and in the file system.
-/

namespace Interlock

/-- Why the program stops. -/
inductive Failure
  | config (e : Settings.Error)
  | url (e : Url.ParseError)
  | json (e : Json.Error)
  | validation (message : String)
  | terminal (message : String)
  | io (message : String)
  | internal (message : String)
  | other (message : String)
  deriving DecidableEq, Repr

/-- The wording of a failure. -/
def Failure.message : Failure → String
  | .config e => "Configuration error: " ++ e.message
  | .url e => "Invalid URL: " ++ e.message
  | .json e => "JSON serialization error: " ++ e.message
  | .validation message => "Validation failed: " ++ message
  | .terminal message => "Terminal error: " ++ message
  | .io message => "IO error: " ++ message
  | .internal message => "Internal error: " ++ message
  | .other message => message

end Interlock

import Interlock.Safety.Dispatch
import Interlock.Url.Parser

/-!
# The endpoints

Every endpoint is a fixed path behind one base address. The base is brought into its usual form and
loses the slashes at its end; a path of its own is kept in front of the endpoint's.
-/

namespace Interlock

/-- The base of the endpoints. -/
structure Endpoints where
  base : String
  deriving DecidableEq, Repr

namespace Endpoints

/-- A text without the slashes at its end. -/
def trimSlashes (s : String) : String :=
  String.ofList (s.toList.reverse.dropWhile (· == '/')).reverse

/-- The endpoints behind a base address. -/
def ofBase [Url.Idna] (s : String) : Except Url.ParseError Endpoints :=
  (Url.parse (Text.trim s)).map fun u => ⟨trimSlashes u.text⟩

/-- The address of a source's status. -/
def statusUrl (e : Endpoints) (k : Source) : String := e.base ++ k.path

/-- The address of an action. -/
def actionUrl (e : Endpoints) (a : ActionEndpoint) : String := e.base ++ a.path

end Endpoints

end Interlock

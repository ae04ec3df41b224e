import Interlock.Settings.Field
import Interlock.Url.Parser

/-!
# Settings

The settings of the program: where the endpoints are, how long a request may take, how often the
sources are asked, and how the log is kept. Settings are checked as a whole: every fault is
reported, in the order address, interval, timeout.
-/

namespace Interlock

/-- The settings. -/
structure Settings where
  baseUrl : String
  requestTimeoutMs : Nat
  intervalMs : Nat
  logLevel : String
  logJson : Bool
  deriving DecidableEq, Repr

namespace Settings

/-- The settings that hold where nothing else is said. -/
def default : Settings where
  baseUrl := "http://127.0.0.1:8787"
  requestTimeoutMs := 4000
  intervalMs := 5000
  logLevel := "info"
  logJson := false

instance : Inhabited Settings := ⟨default⟩

/-! ## Checking -/

/-- What is wrong with settings. -/
inductive Problem
  | foreignScheme (scheme : String)
  | badAddress (e : Url.ParseError)
  | noInterval
  | noTimeout
  /-- A request may take as long as the interval or longer. -/
  | slowTimeout
  deriving DecidableEq, Repr

/-- The wording of a problem. -/
def Problem.message : Problem → String
  | .foreignScheme scheme => "api.base_url must be http or https, got scheme '" ++ scheme ++ "'"
  | .badAddress e => "api.base_url is not a valid URL: " ++ e.message
  | .noInterval => "polling.interval_ms must be positive"
  | .noTimeout => "api.request_timeout_ms must be positive"
  | .slowTimeout => "api.request_timeout_ms should be less than polling.interval_ms"

/-- What is wrong with the address. -/
def addressProblems [Url.Idna] (s : Settings) : List Problem :=
  match Url.parse s.baseUrl with
  | .error e => [.badAddress e]
  | .ok u => if u.scheme = "http" ∨ u.scheme = "https" then [] else [.foreignScheme u.scheme]

/-- What is wrong with the interval. -/
def intervalProblems (s : Settings) : List Problem :=
  if s.intervalMs = 0 then [.noInterval] else []

/-- What is wrong with the timeout. -/
def timeoutProblems (s : Settings) : List Problem :=
  if s.requestTimeoutMs = 0 then [.noTimeout]
  else if s.intervalMs ≤ s.requestTimeoutMs then [.slowTimeout]
  else []

/-- All that is wrong with settings. -/
def problems [Url.Idna] (s : Settings) : List Problem :=
  s.addressProblems ++ s.intervalProblems ++ s.timeoutProblems

/-! ## Settings and trees -/

/-- The tree of the settings that hold where nothing else is said. -/
def defaultTree : Tree :=
  let leaf (v : Scalar) : Tree := .scalar none v
  .table none [
    ("api", .table none [
      ("base_url", leaf (.text default.baseUrl)),
      ("request_timeout_ms", leaf (.integer default.requestTimeoutMs))]),
    ("polling", .table none [("interval_ms", leaf (.integer default.intervalMs))]),
    ("logging", .table none [
      ("level", leaf (.text default.logLevel)),
      ("json", leaf (.bool default.logJson))])]

/-- The settings that a tree holds. Only the address has to be there. -/
def ofTree (root : Tree) : Except Error Settings := do
  let noAddress (tree : Tree) : Except Error String :=
    match tree with
    | .list _ _ => .error (.shortSection .api 2)
    | _ => .error (.missing "base_url")
  let baseUrl ← fieldOr .api root "base_url" Place.text noAddress
  let timeout ← fieldOr .api root "request_timeout_ms" Place.count
    fun _ => .ok default.requestTimeoutMs
  let interval ← fieldOr .polling root "interval_ms" Place.count fun _ => .ok default.intervalMs
  let level ← fieldOr .logging root "level" Place.text fun _ => .ok default.logLevel
  let json ← fieldOr .logging root "json" Place.truth fun _ => .ok default.logJson
  .ok ⟨baseUrl, timeout, interval, level, json⟩

end Settings

end Interlock

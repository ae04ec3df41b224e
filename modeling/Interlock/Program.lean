import Interlock.CommandLine.Help
import Interlock.Endpoints
import Interlock.Failure
import Interlock.Fetch.Exchange
import Interlock.Json.Printer
import Interlock.Monitor
import Interlock.Prompt
import Interlock.Report
import Interlock.Settings.Load

/-!
# The program

What the program writes and how it ends, given its command line and its surroundings. A report ends
well whatever it says; a kill ends well only if it was carried out. Before a kill that was not
confirmed on the command line the program asks, and after the answer it looks at the executor again.
Watching needs a terminal, and there is none behind this module.
-/

namespace Interlock.Program

open Text

/-- What the program meets. -/
structure World where
  settings : Settings.Surroundings
  /-- What becomes of a request to a source, by how many were made to it before. -/
  get : Source → Nat → Exchange
  /-- What becomes of the request to an action endpoint. -/
  post : ActionEndpoint → Exchange
  now : Instant

/-- A request that the program makes. -/
inductive Request
  | status (k : Source)
  | action (a : ActionEndpoint)
  deriving DecidableEq, Repr

/-- What the program writes, how it ends, and the requests that it made on the way. -/
structure Output where
  stdout : String
  /-- What stands there apart from the lines of the log. -/
  stderr : String
  exit : Nat
  requests : List Request
  deriving DecidableEq, Repr, Inhabited

/-- How far the program gets by itself. -/
inductive Progress
  | done (o : Output)
  /-- It has written something and waits for a line; the rest depends on what is read. -/
  | asks (written : String) (answered : List UInt8 → Output)
  /-- It wants a directory for its log; the rest depends on why there cannot be one, if so. -/
  | opensLog (dir : String) (opened : Option String → Output)

/-- An end with an error, before any request. -/
def fault (message : String) : Output := ⟨"", "Error: " ++ message ++ "\n", 1, []⟩

/-! ## Reports -/

/-- The monitor after every source was asked once. -/
def polled (w : World) : Monitor :=
  Monitor.fresh.refreshAll (fun k => (w.get k 0).toResult) w.now

/-- The report as text or as a document. -/
def report (w : World) (e : Endpoints) (json : Bool) : Output :=
  let s := (polled w).snapshot
  let v := Verdict.evaluate s
  let written := if json then (Report.document e.base s v).pretty ++ "\n" else Report.text s v
  ⟨written, "", 0, Source.all.map .status⟩

/-! ## The kill switch -/

/-- The monitor after the executor was asked, which it was `before` times already. -/
def lookAtExecutor (w : World) (before : Nat) (m : Monitor) : Monitor :=
  m.refresh .executor (w.get .executor before).toResult w.now

/-- Carries out a kill with the gate as a monitor has it. -/
def engage (w : World) (m : Monitor) : Dispatch.Attempt :=
  Dispatch.confirm (Verdict.evaluate m.snapshot).automationLocked
    (w.post .kill).toPosted (w.post .lock).toPosted Dialog.fresh.reopen.2

/-- The line about the banner. -/
def bannerLine (v : Verdict) : String :=
  "Banner: " ++ v.banner.level.text ++ " " ++ v.banner.message ++ "\n"

/-- The end of a kill that was carried out, after what was written and requested before. -/
def ended (written : String) (made : List Request) (a : Dispatch.Attempt) : Output where
  stdout := written ++ ((a.outcome.map fun o => o.detail ++ "\n").getD "")
  stderr := ""
  exit := if (a.outcome.map Outcome.status) = some .success then 0 else 1
  requests := made ++ a.posts.map .action

/-- The end of a kill that was declined. -/
def cancelled (written : String) (made : List Request) : Output :=
  ⟨written ++ "Cancelled\n", "", 1, made⟩

/-- What an answer to the question leads to; `m` is the monitor at the time of the question. -/
def answered (w : World) (m : Monitor) (written : String) (answer : List UInt8) : Output :=
  if Prompt.consents answer then
    ended written [.status .executor, .status .executor] (engage w (lookAtExecutor w 1 m))
  else cancelled written [.status .executor]

/-- A kill, asked for first unless `yes`. -/
def kill (w : World) (e : Endpoints) (yes : Bool) : Progress :=
  let m := lookAtExecutor w 0 .fresh
  let written := bannerLine (Verdict.evaluate m.snapshot)
  if yes then .done (ended written [.status .executor] (engage w m))
  else
    let written := written ++ Prompt.question e.base
    .asks written (answered w m written)

/-! ## Watching -/

/-- The variable for the directory of the log. -/
def logVariable : String := "SENTINEL_LOG_DIR"

/-- The directory of the log if nothing else is said. -/
def defaultLogDir : String := "./logs"

/-- Why the directory of the log cannot be made where files stand at the given paths. -/
def logFaultAmong (files : List String) (dir : String) : Option String :=
  let path := Settings.plainPath dir
  let under (f : String) : Bool := (f ++ "/").toList.isPrefixOf path.toList
  if files.contains path then some "File exists (os error 17)"
  else if files.any under then some "Not a directory (os error 20)"
  else none

/-- What the attempt to watch writes of the directory of the log. -/
def logNote (dir : String) : Option String → String
  | none => "Logging to: " ++ dir ++ "\n"
  | some reason => "Warning: Could not write to log directory " ++ dir ++ " (" ++ reason ++
      "), file logging disabled\n"

/-- The end of watching without a terminal. -/
def noTerminal : Output :=
  fault (Failure.terminal
    "Failed to init terminal: No such device or address (os error 6)").message

/-- Watching, without a terminal. -/
def watch (w : World) : Progress :=
  let dir := (w.settings.valueOf logVariable).getD defaultLogDir
  .opensLog dir fun reason => { noTerminal with stderr := logNote dir reason ++ noTerminal.stderr }

/-! ## The whole program -/

/-- The variable for the directory of settings. -/
def configDirVariable : String := "SENTINEL_CONFIG_DIR"

/-- An end because settings cannot be read. -/
def unreadable (dir : String) (e : Settings.Error) : Output :=
  fault ("loading config from " ++ dir ++ "\n\nCaused by:\n    0: " ++ (Failure.config e).message ++
    "\n    1: " ++ e.message)

/-- An end because settings do not hold together. -/
def invalid (problems : List Settings.Problem) : Output :=
  fault ("invalid configuration:\n  " ++ join "\n  " (problems.map Settings.Problem.message))

/-- Carries out a command with settings that were checked. -/
def carryOut [Url.Idna] (w : World) (s : Settings) (c : Command) : Progress :=
  match c, Endpoints.ofBase s.baseUrl with
  | .watch, _ => watch w
  | _, .error e => .done (fault (Failure.url e).message)
  | .status json, .ok e => .done (report w e json)
  | .kill yes, .ok e => kill w e yes

/-- Why a command line is not carried out, on the screen. Faults of use are told apart by how the
program ends. -/
def stopped (w : World) : CommandLine.Stop → Output
  | .showHelp topic =>
    ⟨CommandLine.helpText (w.settings.valueOf configDirVariable) topic, "", 0, []⟩
  | .showVersion => ⟨CommandLine.versionText, "", 0, []⟩
  | _ => ⟨"", "error: the command line is not understood\n", 2, []⟩

/-- The program. -/
def run [Url.Idna] (w : World) (words : List String) : Progress :=
  match CommandLine.read (w.settings.valueOf configDirVariable) words with
  | .error stop => .done (stopped w stop)
  | .ok c =>
    match Settings.loadWith w.settings c.configDir c.baseUrl with
    | .error e => .done (unreadable c.configDir e)
    | .ok s =>
      match s.problems with
      | [] => carryOut w s c.command
      | problems => .done (invalid problems)

end Interlock.Program

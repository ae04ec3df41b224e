import Interlock.Console
import Interlock.Monitor
import Interlock.Safety.Dispatch

/-!
# A session

A monitor, a console and a dispatcher that work together. The monitor publishes, the console follows
when it is synchronised, and a confirmation asks the state that is published at that moment,
whatever the console shows. A confirmation that the gate lets through issues a request; to send it
and to record its outcome are steps of their own, so that anything may happen in between. Each step
says what it answers, which endpoints it posts and which refreshes it asks for.
-/

namespace Interlock

/-- What has become of a kill request that was issued. -/
inductive KillRequest
  | issued
  /-- It was sent, and its outcome has not been recorded yet. -/
  | sent (outcome : Outcome)
  | finished
  deriving DecidableEq, Repr

/-- The state of a session. -/
structure Session where
  monitor : Monitor
  console : Console
  /-- How often the state had been published when the console was last synchronised. -/
  seen : Nat
  /-- The fetches that were left under way, by number; none once they have landed. -/
  fetches : List (Option Source)
  /-- The requests that were issued, by number. -/
  requests : List KillRequest
  /-- Whether somebody listens to wishes for a refresh. -/
  listening : Bool

namespace Session

/-- A session at its start. -/
def fresh : Session := ⟨.fresh, .fresh, 0, [], [], true⟩

instance : Inhabited Session := ⟨fresh⟩

/-- What can happen in a session. -/
inductive Event
  /-- A source is fetched, to the end. -/
  | refresh (k : Source) (r : FetchResult)
  /-- Every source is fetched, to the end. -/
  | refreshAll (results : Source → FetchResult)
  /-- A fetch begins and is left under way. -/
  | start (k : Source)
  /-- The fetch with the given number lands. -/
  | settle (id : Nat) (r : FetchResult)
  | close
  /-- The console shows the published state, if it has been published again. -/
  | sync
  /-- A key whose command is carried out at once. -/
  | key (action : KeyAction)
  /-- A key whose command is left alone. -/
  | press (action : KeyAction)
  /-- A confirmation is resolved. -/
  | begin
  /-- The issued request with the given number is sent. -/
  | post (id : Nat) (kill lock : Posted)
  /-- The outcome of the sent request with the given number is recorded. -/
  | deliver (id : Nat)
  /-- The request that was issued last is sent and its outcome recorded. -/
  | send (kill lock : Posted)
  /-- An outcome is recorded. -/
  | finish (outcome : Outcome)
  /-- A confirmation is resolved and carried through. -/
  | confirm (kill lock : Posted)
  | request (r : RefreshRequest)
  /-- Nobody listens to wishes for a refresh any more. -/
  | dropRequests

/-- What a step answers. -/
inductive Answer
  | nothing
  /-- The number of a fetch; none if no request was made. -/
  | started (id : Option Nat)
  /-- Whether the published state was new to the console. -/
  | synced (changed : Bool)
  | closed (value : Bool)
  /-- The command of a key, whether a wish for a refresh was heard, and what a confirmation came
  to. -/
  | pressed (command : ConsoleCommand) (queued : Option Bool) (confirmation : Option Confirmation)
  | confirmation (c : Confirmation)
  | sent (outcome : Outcome) (recorded : Bool)
  | recorded (value : Bool)
  | outcome (o : Option Outcome)
  | queued (accepted : Bool)
  | nothingToSend
  | unknownFetch
  | alreadySettled
  deriving DecidableEq

/-- What one step does besides changing the session. -/
structure Effect where
  answer : Answer
  posts : List ActionEndpoint
  refreshes : List RefreshRequest

/-- An effect that is nothing but an answer. -/
def Effect.just (a : Answer) : Effect := ⟨a, [], []⟩

/-- Whether the gate is closed, by the state that is published now. -/
def gateLocked (s : Session) : Bool := (Verdict.evaluate s.monitor.snapshot).automationLocked

/-- The wishes for a refresh that are heard. -/
def heard (s : Session) (rs : List RefreshRequest) : List RefreshRequest :=
  if s.listening then rs else []

/-- Puts another dialog on the console. -/
def setDialog (s : Session) (d : Dialog) : Session :=
  { s with console := { s.console with dialog := d } }

/-- Says what has become of the request with the given number. -/
def setRequest (s : Session) (id : Nat) (r : KillRequest) : Session :=
  { s with requests := s.requests.set id r }

/-- Resolves a confirmation with the published state. -/
def resolve (s : Session) : Confirmation × List RefreshRequest × Session :=
  let (c, d, asked) := Dispatch.begin s.gateLocked s.console.dialog
  (c, s.heard asked,
    { s.setDialog d with requests := if c = .send then s.requests ++ [.issued] else s.requests })

/-- Gives an outcome to the dialog: whether it was taken, and the refreshes that are heard. -/
def record (outcome : Outcome) (s : Session) : Bool × List RefreshRequest × Session :=
  let (recorded, d, asked) := Dispatch.finish outcome s.console.dialog
  (recorded, s.heard asked, s.setDialog d)

/-- A key; the commands to refresh and to confirm are carried out at once. -/
def pressKey (action : KeyAction) (s : Session) : Effect × Session :=
  let (command, console) := s.console.press action
  let s := { s with console := console }
  match command with
  | .refresh => (⟨.pressed command (some s.listening) none, [], s.heard [.all]⟩, s)
  | .confirmKill =>
    let (c, asked, s) := s.resolve
    (⟨.pressed command none (some c), [], asked⟩, s)
  | _ => (.just (.pressed command none none), s)

/-- One step; `now` is the time at which a result lands in it. -/
def step (now : Instant) (s : Session) : Event → Effect × Session
  | .refresh k r => (.just .nothing, { s with monitor := s.monitor.refresh k r now })
  | .refreshAll results => (.just .nothing, { s with monitor := s.monitor.refreshAll results now })
  | .start k =>
    match s.monitor.begin k with
    | (false, _) => (.just (.started none), s)
    | (true, m) =>
      (.just (.started (some s.fetches.length)),
        { s with monitor := m, fetches := s.fetches ++ [some k] })
  | .settle id r =>
    match s.fetches[id]? with
    | none => (.just .unknownFetch, s)
    | some none => (.just .alreadySettled, s)
    | some (some k) =>
      (.just .nothing,
        { s with monitor := s.monitor.land k r now, fetches := s.fetches.set id none })
  | .close => (.just (.closed true), { s with monitor := s.monitor.close })
  | .sync =>
    if s.seen = s.monitor.version then (.just (.synced false), s)
    else
      (.just (.synced true),
        { s with
          console := s.console.display s.monitor.snapshot
          seen := s.monitor.version })
  | .key action => s.pressKey action
  | .press action =>
    let (command, console) := s.console.press action
    (.just (.pressed command none none), { s with console := console })
  | .begin =>
    let (c, asked, s) := s.resolve
    (⟨.confirmation c, [], asked⟩, s)
  | .post id kill lock =>
    match s.requests[id]? with
    | some .issued =>
      let (outcome, posts) := Dispatch.send kill lock
      (⟨.outcome (some outcome), posts, []⟩, s.setRequest id (.sent outcome))
    | _ => (.just .nothingToSend, s)
  | .deliver id =>
    match s.requests[id]? with
    | some (.sent outcome) =>
      let (recorded, asked, s) := s.record outcome
      (⟨.recorded recorded, [], asked⟩, s.setRequest id .finished)
    | _ => (.just .nothingToSend, s)
  | .send kill lock =>
    let id := s.requests.length - 1
    match s.requests[id]? with
    | some .issued =>
      let (outcome, posts) := Dispatch.send kill lock
      let (recorded, asked, s) := s.record outcome
      (⟨.sent outcome recorded, posts, asked⟩, s.setRequest id .finished)
    | _ => (.just .nothingToSend, s)
  | .finish outcome =>
    let (recorded, asked, s) := s.record outcome
    (⟨.recorded recorded, [], asked⟩, s)
  | .confirm kill lock =>
    let a := Dispatch.confirm s.gateLocked kill lock s.console.dialog
    (⟨.outcome a.outcome, a.posts, s.heard a.refreshes⟩, s.setDialog a.dialog)
  | .request r => (⟨.queued s.listening, [], s.heard [r]⟩, s)
  | .dropRequests => (.just .nothing, { s with listening := false })

/-- A sequence of steps with the time of each. -/
def run (s : Session) (events : List (Instant × Event)) : Session :=
  events.foldl (fun s e => (s.step e.1 e.2).2) s

end Session

end Interlock

import Interlock.Monitor
import Interlock.Safety.Dispatch

/-!
# The poll loop

The loop waits for three things at once: the next tick, a wish for a refresh, and word on whether it
is to stop. A tick and a wish order fetches. Fetches that were ordered begin and land on their own,
so no fetch holds up the loop or another fetch, and a fetch outlives the loop that ordered it. The
loop stops when it reads that it is to stop, or when it notices that nobody is left who could tell
it; then the monitor is closed.

What the loop, its fetches and others do is a sequence of events, and each event may come at any
time: one that cannot happen where the loop stands does nothing.
-/

namespace Interlock

/-- The sources that a wish for a refresh names. -/
def RefreshRequest.sources : RefreshRequest → List Source
  | .all => Source.all
  | .source k => [k]

namespace Monitor

/-- Where a loop stands. -/
inductive Stage
  /-- It waits for a tick, a wish or word. -/
  | waiting
  /-- It has noticed that there is word, and has not read it yet. -/
  | noticed
  /-- It has stopped, and has not closed the monitor yet. -/
  | leaving
  | ended
  /-- It was never entered. -/
  | absent
  deriving DecidableEq, Repr

/-- The channel on which a loop is told whether to stop. Only the latest word is kept. -/
structure Stopper where
  /-- Whether the loop is to stop, by the latest word. -/
  value : Bool
  /-- Whether the latest word is new to the loop. -/
  unseen : Bool
  /-- Whether somebody can still send word. -/
  held : Bool
  deriving DecidableEq, Repr

/-- A fetch that has begun. -/
structure Fetch where
  source : Source
  /-- How many fetches of this source began before it. -/
  number : Nat
  begun : Nat
  /-- The result; none until it lands. -/
  result : Option FetchResult

/-- Whether a fetch is still under way. -/
def Fetch.underWay (f : Fetch) : Bool := f.result.isNone

/-- A loop in the middle of a run. -/
structure Loop where
  monitor : Monitor
  stage : Stage
  /-- How many ticks it has taken. -/
  ticks : Nat
  /-- The wishes that reached it and were not received yet, the oldest first. -/
  queue : List RefreshRequest
  /-- How many handles are left on which a refresh can be wished for. -/
  handles : Nat
  stopper : Stopper
  /-- The fetches that were ordered and have not begun yet. -/
  ordered : List Source
  /-- The fetches that have begun, in the order in which they did. -/
  fetches : List Fetch

namespace Loop

/-- The loop of a monitor at its start. An interval of zero is refused before the loop is entered. -/
def enter (interval : Nat) (monitor : Monitor) (queue : List RefreshRequest) (handles : Nat)
    (stopper : Stopper) : Loop where
  monitor := monitor
  stage := if interval = 0 then .absent else .waiting
  ticks := 0
  queue := queue
  handles := handles
  stopper := stopper
  ordered := []
  fetches := []

/-- The loop of a fresh monitor, with one handle and with nothing said yet. -/
def start (interval : Nat) : Loop := enter interval .fresh [] 1 ⟨false, false, true⟩

/-- Whether the loop still holds its ends of the channels. -/
def running (l : Loop) : Bool :=
  match l.stage with
  | .waiting | .noticed | .leaving => true
  | .ended | .absent => false

/-- The requests of one source made so far. -/
def requestCount (k : Source) (l : Loop) : Nat := l.fetches.countP (·.source == k)

/-! ## What can be done -/

/-- Orders the fetches that a wish names. -/
def order (r : RefreshRequest) (l : Loop) : Loop := { l with ordered := l.ordered ++ r.sources }

/-- Begins a fetch; a closed monitor makes no request. -/
def fetch (now : Nat) (k : Source) (l : Loop) : Loop :=
  match l.monitor.begin k with
  | (false, _) => l
  | (true, m) =>
    { l with
      monitor := m
      fetches := l.fetches ++ [⟨k, l.requestCount k, now, none⟩] }

/-- Somebody wishes for a refresh on a handle: whether the wish reached the loop; none if there is
no handle. -/
def ask (r : RefreshRequest) (l : Loop) : Option Bool × Loop :=
  if l.handles = 0 then (none, l)
  else if l.running then (some true, { l with queue := l.queue ++ [r] })
  else (some false, l)

/-- Somebody sends word: whether it reached the loop; none if nobody can. -/
def tell (value : Bool) (l : Loop) : Option Bool × Loop :=
  if !l.stopper.held then (none, l)
  else if l.running then (some true, { l with stopper := ⟨value, true, true⟩ })
  else (some false, l)

/-! ## Events -/

/-- What can happen to a loop. -/
inductive Event
  /-- A tick is taken. -/
  | tick
  /-- The oldest wish is received. -/
  | receive
  /-- The loop notices that there is word, or that nobody is left to send any. -/
  | notice
  /-- The loop reads the latest word. -/
  | read
  /-- The loop closes the monitor and lets go of its ends of the channels. -/
  | leave
  /-- The fetch at this place among those ordered begins. -/
  | begin (i : Nat)
  /-- The fetch with this number among all fetches lands. -/
  | land (i : Nat) (r : FetchResult)
  | ask (r : RefreshRequest)
  /-- A handle is doubled. -/
  | clone
  /-- A handle is let go. -/
  | drop
  | tell (value : Bool)
  /-- Nobody can send word any more. -/
  | release
  /-- Somebody else closes the monitor. -/
  | close

/-- One event at a time. -/
def step (now : Nat) (l : Loop) : Event → Loop
  | .tick =>
    match l.stage with
    | .waiting => { l with ticks := l.ticks + 1 }.order .all
    | _ => l
  | .receive =>
    match l.stage, l.queue with
    | .waiting, r :: rest => { l with queue := rest }.order r
    | _, _ => l
  | .notice =>
    match l.stage with
    | .waiting =>
      if l.stopper.unseen then
        { l with stage := .noticed, stopper := { l.stopper with unseen := false } }
      else if l.stopper.held then l
      else { l with stage := .leaving }
    | _ => l
  | .read =>
    match l.stage with
    | .noticed => { l with stage := if l.stopper.value then .leaving else .waiting }
    | _ => l
  | .leave =>
    match l.stage with
    | .leaving => { l with stage := .ended, monitor := l.monitor.close }
    | _ => l
  | .begin i =>
    match l.ordered[i]? with
    | some k => { l with ordered := l.ordered.eraseIdx i }.fetch now k
    | none => l
  | .land i r =>
    match l.fetches[i]? with
    | some ⟨k, number, begun, none⟩ =>
      { l with
        monitor := l.monitor.land k r ⟨now⟩
        fetches := l.fetches.set i ⟨k, number, begun, some r⟩ }
    | _ => l
  | .ask r => (l.ask r).2
  | .clone => { l with handles := if l.handles = 0 then 0 else l.handles + 1 }
  | .drop => { l with handles := l.handles - 1 }
  | .tell value => (l.tell value).2
  | .release => { l with stopper := { l.stopper with held := false } }
  | .close => { l with monitor := l.monitor.close }

/-- A sequence of events with the time of each. -/
def steps (l : Loop) (events : List (Nat × Event)) : Loop :=
  events.foldl (fun l e => l.step e.1 e.2) l

end Loop

end Monitor

end Interlock

import Interlock.Fetch.Snapshot

/-!
# The monitor

The monitor is the only one that changes the state of the sources. It publishes the state whenever a
fetch begins or lands, and once it is closed it begins no fetch and drops the results of those that
are still under way.

Tasks take turns and do not run in parallel: what a task does from one wait to the next is one step.
So `begin` and `land` look at `closed` and publish in the same step, and nothing comes in between.
-/

namespace Interlock

/-- The monitor: the published state, how often it has been published, and whether the monitor is
closed. -/
structure Monitor where
  snapshot : Snapshot
  version : Nat
  closed : Bool
  deriving Inhabited

namespace Monitor

/-- A monitor that has fetched nothing. -/
def fresh : Monitor := ⟨.fresh, 0, false⟩

/-- Begins a fetch, unless the monitor is closed: whether a request is made, and the monitor. -/
def begin (k : Source) (m : Monitor) : Bool × Monitor :=
  if m.closed then (false, m)
  else (true, { m with snapshot := m.snapshot.begin k, version := m.version + 1 })

/-- A result lands; a closed monitor drops it. -/
def land (k : Source) (r : FetchResult) (now : Instant) (m : Monitor) : Monitor :=
  if m.closed then m
  else { m with snapshot := m.snapshot.settle k r now, version := m.version + 1 }

/-- Closes the monitor. -/
def close (m : Monitor) : Monitor := { m with closed := true }

/-- Fetches one source, to the end. -/
def refresh (k : Source) (r : FetchResult) (now : Instant) (m : Monitor) : Monitor :=
  match m.begin k with
  | (true, m) => m.land k r now
  | (false, m) => m

/-- Fetches every source, to the end. -/
def refreshAll (results : Source → FetchResult) (now : Instant) (m : Monitor) : Monitor :=
  Source.all.foldl (fun m k => m.refresh k (results k) now) m

/-! ## Runs -/

/-- What can happen to a monitor. -/
inductive Event
  | begin (k : Source)
  | land (k : Source) (r : FetchResult) (now : Instant)
  | close
  deriving Inhabited

/-- One event. -/
def step (m : Monitor) : Event → Monitor
  | .begin k => (m.begin k).2
  | .land k r now => m.land k r now
  | .close => m.close

/-- A sequence of events. -/
def run (m : Monitor) (events : List Event) : Monitor := events.foldl step m

end Monitor

end Interlock

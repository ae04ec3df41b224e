import Interlock.Monitor.Loop.Clock

/-!
# Commands to a running loop

A loop runs by the clock while others wish for refreshes, tell it to stop, or let go of their ends
of the channels. Time is counted in milliseconds. Before each command and after it the loop settles,
so it is at rest whenever it is seen.
-/

namespace Interlock.Monitor.Loop

/-- What can be done to a loop from outside. -/
inductive Command
  | look
  | request (r : RefreshRequest)
  | dropHandle
  | shutdown (value : Bool)
  | dropStopper
  | close
  deriving DecidableEq, Repr

/-- What a command is answered. -/
inductive Answer
  | nothing
  /-- Whether the wish reached the loop; none if nobody could ask. -/
  | queued (accepted : Option Bool)
  /-- Whether the value reached the loop. -/
  | sent (accepted : Bool)
  deriving DecidableEq, Repr

/-- The event that a command is to the loop. -/
def Command.event? : Command → Option Event
  | .look => none
  | .request r => some (.ask r)
  | .dropHandle => some .drop
  | .shutdown value => some (.tell value)
  | .dropStopper => some .release
  | .close => some .close

/-- What a command is answered. -/
def Command.answer (l : Loop) : Command → Answer
  | .request r => .queued (l.ask r).1
  | .shutdown value =>
    match (l.tell value).1 with
    | none => .nothing
    | some accepted => .sent accepted
  | _ => .nothing

/-- Carries out a command at a time, and all that it leads to at once. -/
def command (script : Script) (interval now : Nat) (c : Command) (l : Loop) : Loop :=
  match c.event? with
  | none => l
  | some e => (l.step now e).settle script interval now

/-- What is seen of a loop just before a command, and the answer to the command. -/
structure Sight where
  snapshot : Snapshot
  closed : Bool
  running : Bool
  answer : Answer

/-- What is seen of a loop just before a command. -/
def sight (c : Command) (l : Loop) : Sight :=
  ⟨l.monitor.snapshot, l.monitor.closed, l.running, c.answer l⟩

/-- Runs a loop through commands at given times; `now` is the time it has come to. A command whose
time is over is carried out at once. -/
def run (script : Script) (interval : Nat) :
    (now : Nat) → List (Nat × Command) → Loop → List Sight × Loop
  | _, [], l => ([], l)
  | now, (time, c) :: rest, l =>
    let l := (l.settle script interval now).pass script interval (time - now) now
    let now := max now time
    let (sights, last) := run script interval now rest (l.command script interval now c)
    (l.sight c :: sights, last)

/-- The requests in the order in which they were made, with their times. -/
def timeline (l : Loop) : List (Nat × Source) := l.fetches.map fun f => (f.begun, f.source)

end Interlock.Monitor.Loop

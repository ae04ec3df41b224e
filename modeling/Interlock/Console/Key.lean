/-!
# Keys

What the operator's keys mean. A key is a character or has a name; only the control key changes the
meaning of another key, and only of one.
-/

namespace Interlock

/-- A key of the keyboard. -/
inductive Key
  | char (c : Char)
  | enter
  | esc
  | tab
  | backTab
  | other
  deriving DecidableEq, Repr, Inhabited

/-- What a key asks for. -/
inductive KeyAction
  | quit
  | refresh
  | openKill
  | openLock
  | confirm
  | cancel
  | nextCard
  | prevCard
  | toggleRaw
  | help
  | none
  deriving DecidableEq, Repr, Inhabited

/-- The meaning of a key, pressed with or without the control key. -/
def Key.action (control : Bool) : Key → KeyAction
  | .char 'c' => if control then .quit else .none
  | .char 'q' => .quit
  | .char 'r' => .refresh
  | .char 'K' => .openKill
  | .char 'L' => .openLock
  | .char 'y' => .confirm
  | .enter => .confirm
  | .char 'n' => .cancel
  | .esc => .cancel
  | .tab => .nextCard
  | .backTab => .prevCard
  | .char 'v' => .toggleRaw
  | .char '?' => .help
  | _ => .none

end Interlock

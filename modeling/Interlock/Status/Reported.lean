import Interlock.Reading

/-!
# Values that a source may leave out

A value that was not reported is shown, and written, as the word for a value that is not available,
also where it would be a number.
-/

namespace Interlock

/-- A value that a source reports, or not. -/
abbrev Reported (α : Type) := Option α

namespace Reported

/-- A value as it is shown. -/
def text (f : α → String) : Reported α → String
  | none => Reading.notAvailable
  | some a => f a

/-- A value as it is written. -/
def toJson (f : α → Json) : Reported α → Json
  | none => .string Reading.notAvailable
  | some a => f a

end Reported

end Interlock

import Interlock.Text.Basic

/-!
# Moments in time

A moment is a number of milliseconds since the start of 1970, UTC. It is written as a date and a
time of day of the Gregorian calendar, with a fraction only if there is one.
-/

namespace Interlock

/-- A moment, in milliseconds since the start of 1970, UTC. -/
structure Instant where
  ms : Int
  deriving DecidableEq, Repr, Inhabited

namespace Instant

open Text

instance : LE Instant := ⟨fun a b => a.ms ≤ b.ms⟩

instance (a b : Instant) : Decidable (a ≤ b) := inferInstanceAs (Decidable (a.ms ≤ b.ms))

/-- The earlier of two moments. -/
def min (a b : Instant) : Instant := if b.ms < a.ms then b else a

/-- The whole seconds from one moment to another; none if the other one is earlier. -/
def secondsUntil (a b : Instant) : Nat := ((b.ms - a.ms) / 1000).toNat

/-- The year, month and day of a day number counted from the start of 1970. The calendar repeats
every 400 years, and a year that starts in March has its leap day at the end. -/
def civil (day : Int) : Int × Nat × Nat :=
  let z := day + 719468
  let era := z / 146097
  let doe := (z % 146097).toNat
  let yoe := (doe - doe / 1460 + doe / 36524 - doe / 146096) / 365
  let doy := doe - (365 * yoe + yoe / 4 - yoe / 100)
  let mp := (5 * doy + 2) / 153
  let d := doy - (153 * mp + 2) / 5 + 1
  let m := if mp < 10 then mp + 3 else mp - 9
  ((yoe : Int) + era * 400 + (if m ≤ 2 then 1 else 0), m, d)

/-- A year with at least four digits, and with a sign if it has another number of them. -/
def yearText (y : Int) : String :=
  if 0 ≤ y ∧ y ≤ 9999 then zeroPadded 4 y.toNat
  else (if y < 0 then "-" else "+") ++ zeroPadded 4 y.natAbs

/-- The moment as date, time and the letter for UTC. -/
def text (t : Instant) : String :=
  let day := t.ms / 86400000
  let rest := (t.ms % 86400000).toNat
  let (y, m, d) := civil day
  let clock := zeroPadded 2 (rest / 3600000) ++ ":" ++ zeroPadded 2 (rest / 60000 % 60) ++ ":" ++
    zeroPadded 2 (rest / 1000 % 60)
  let fraction := if rest % 1000 = 0 then "" else "." ++ zeroPadded 3 (rest % 1000)
  yearText y ++ "-" ++ zeroPadded 2 m ++ "-" ++ zeroPadded 2 d ++ "T" ++ clock ++ fraction ++ "Z"

end Instant

end Interlock

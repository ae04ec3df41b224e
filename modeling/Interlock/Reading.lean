import Interlock.Json.Printer
import Interlock.Number.Reader

/-!
# Reading loosely typed payloads

Sources report the same field under two spellings, as a number or as a text, and inside up to two
`data` envelopes. The readers here take a payload as it comes: what is absent, null or of another
type is `none`, and the caller chooses the default.
-/

namespace Interlock.Reading

open Text

/-! ## Finding a value -/

/-- How many `data` envelopes are opened. -/
def maxEnvelopes : Nat := 2

/-- Opens up to `n` envelopes, as long as their content is an object. -/
def openEnvelopes : Nat → Json → Json
  | 0, j => j
  | n + 1, j =>
    match j.member? "data" with
    | some inner => if inner.isObject then openEnvelopes n inner else j
    | none => j

/-- The content of a payload. -/
def content (j : Json) : Json := openEnvelopes maxEnvelopes j

/-- The first member that is there and not null, in the order of the keys. -/
def field (keys : List String) (j : Json) : Option Json :=
  keys.findSome? fun key => (j.member? key).filter fun v => !v.isNull

/-- The first member that is there and not null, if it is an object. -/
def objectField (keys : List String) (j : Json) : Option Json :=
  (field keys j).filter Json.isObject

/-! ## Taking a value for what it should be -/

/-- What a text says about a switch. -/
def flagOfText? (s : String) : Option Bool :=
  let word := lower (trim s)
  if word ∈ ["true", "1", "yes", "on"] then some true
  else if word ∈ ["false", "0", "no", "off", ""] then some false
  else none

/-- A switch: a truth value, a number that is zero or not, or a word. -/
def flag? : Option Json → Option Bool
  | some (.bool b) => some b
  | some (.number (.whole i)) => some (i != 0)
  | some (.number (.real x)) => some (!x.isZero)
  | some (.string s) => flagOfText? s
  | _ => none

/-- The count that a double stands for: its whole part. The double `2 ^ 64` itself is taken for
the largest count. -/
def countOfReal? (x : Binary64) : Option Nat :=
  match x.wholePart? with
  | some (n, exact) =>
    if n < Number.wordBound then some n
    else if n = Number.wordBound && exact then some (Number.wordBound - 1)
    else none
  | none => none

/-- The count that a text writes, as a whole number or else as a double. -/
def countOfText? (s : String) : Option Nat :=
  let s := trim s
  (Number.readWord? s).or ((Number.readBinary64? s).bind countOfReal?)

/-- A count of 64 bits. -/
def count? : Option Json → Option Nat
  | some (.number (.whole (.ofNat n))) => some n
  | some (.number (.real x)) => countOfReal? x
  | some (.string s) => countOfText? s
  | _ => none

/-- One more than the largest code. -/
def codeBound : Nat := Nat.pow 2 16

/-- A code of 16 bits. -/
def code? (v : Option Json) : Option Nat := (count? v).filter (· < codeBound)

/-- The word for a value that a source does not report. -/
def notAvailable : String := "n/a"

/-- A text that says something: not empty and not the word for a value that is not reported. -/
def meaningful (s : String) : Option String :=
  if s = "" || sameIgnoringCase s notAvailable then none else some s

/-- A text: a string without blank space around it, a number or a truth value in words. -/
def text? : Option Json → Option String
  | some (.string s) => meaningful (trim s)
  | some (.number n) => meaningful n.text
  | some (.bool b) => meaningful (if b then "true" else "false")
  | _ => none

/-- The texts of an array in order, without the entries that are none. -/
def texts (v : Option Json) : List String :=
  match v with
  | some (.array items) => items.filterMap fun j => text? (some j)
  | _ => []

end Interlock.Reading

import Interlock.Text.Basic
import Interlock.Text.Utf8

/-!
# Asking on the terminal

The question before a kill switch is engaged from the command line, and the answers that count as
consent. Everything else declines: an empty line, the end of the input, bytes that are no text.
-/

namespace Interlock.Prompt

open Text

/-- The question. -/
def question (target : String) : String := "Engage kill switch at " ++ target ++ "? [y/N] "

/-- The bytes of the first line, without its end. -/
def firstLine (input : List UInt8) : List UInt8 := input.takeWhile (· != 10)

/-- Whether the answer on the first line is consent. -/
def consents (input : List UInt8) : Bool :=
  match Utf8.decode? (firstLine input) with
  | none => false
  | some cs =>
    let answer := lower (trim (String.ofList cs))
    answer == "y" || answer == "yes"

end Interlock.Prompt

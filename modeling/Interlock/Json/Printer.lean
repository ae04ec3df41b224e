import Interlock.Json.Value
import Interlock.Number.Format

/-!
# Writing JSON

`compact` writes a document without blank space, `pretty` with one item or member a line and two
spaces for each level. Both write the same tokens. Characters outside ASCII are written as they
are; a double has its shortest digits.
-/

namespace Interlock.Json

open Text

/-! ## Tokens -/

/-- Doubles are positional from `0.00001` up to, but not including, `10^16`, and a whole one keeps
its point. -/
def floatFormat : Number.FloatFormat := ⟨some (-5, 15), true, "inf", "nan"⟩

/-- The spelling of a number. -/
def Number.text : Number → String
  | .whole i => ofInt i
  | .real x => floatFormat.render x

/-- A character inside a string. -/
def escapeChar (c : Char) : List Char :=
  match c with
  | '"' => ['\\', '"']
  | '\\' => ['\\', '\\']
  | '\n' => ['\\', 'n']
  | '\r' => ['\\', 'r']
  | '\t' => ['\\', 't']
  | '\x08' => ['\\', 'b']
  | '\x0c' => ['\\', 'f']
  | c =>
    if c.toNat < 0x20 then
      ['\\', 'u', '0', '0', hexDigit (c.toNat / 16), hexDigit (c.toNat % 16)]
    else [c]

/-- A string in its quotes. -/
def quoted (s : String) : String :=
  String.ofList ('"' :: (s.toList.flatMap escapeChar ++ ['"']))

/-! ## Documents -/

mutual

/-- A document on one line. -/
def compact : Json → String
  | .null => "null"
  | .bool b => if b then "true" else "false"
  | .number n => n.text
  | .string s => quoted s
  | .array items => "[" ++ compactItems items ++ "]"
  | .object members => "\x7b" ++ compactMembers members ++ "\x7d"

/-- Items with a comma between each two. -/
def compactItems : List Json → String
  | [] => ""
  | [j] => j.compact
  | j :: rest => j.compact ++ "," ++ compactItems rest

/-- Members with a comma between each two. -/
def compactMembers : List (String × Json) → String
  | [] => ""
  | [(k, v)] => quoted k ++ ":" ++ v.compact
  | (k, v) :: rest => quoted k ++ ":" ++ v.compact ++ "," ++ compactMembers rest

end

/-- A line break and the blank space of a level. -/
def newline (level : Nat) : String := "\n" ++ String.ofList (List.replicate (2 * level) ' ')

mutual

/-- A document over several lines, its first line standing at the given level. -/
def prettyAt (level : Nat) : Json → String
  | .null => "null"
  | .bool b => if b then "true" else "false"
  | .number n => n.text
  | .string s => quoted s
  | .array [] => "[]"
  | .array items => "[" ++ prettyItems (level + 1) items ++ newline level ++ "]"
  | .object [] => "\x7b\x7d"
  | .object members =>
    "\x7b" ++ prettyMembers (level + 1) members ++ newline level ++ "\x7d"

/-- Items, each on lines of its own. -/
def prettyItems (level : Nat) : List Json → String
  | [] => ""
  | [j] => newline level ++ prettyAt level j
  | j :: rest => newline level ++ prettyAt level j ++ "," ++ prettyItems level rest

/-- Members, each on lines of its own. -/
def prettyMembers (level : Nat) : List (String × Json) → String
  | [] => ""
  | [(k, v)] => newline level ++ quoted k ++ ": " ++ prettyAt level v
  | (k, v) :: rest =>
    newline level ++ quoted k ++ ": " ++ prettyAt level v ++ "," ++ prettyMembers level rest

end

/-- A document over several lines. -/
def pretty (j : Json) : String := prettyAt 0 j

end Interlock.Json

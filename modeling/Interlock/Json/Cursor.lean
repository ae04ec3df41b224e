import Interlock.Json.Error

/-!
# A place in a text that is being read

The bytes that are left and the place of the last byte that was read. The syntax of JSON is ASCII,
so a byte is looked at as the character with its number.
-/

namespace Interlock.Json

/-- The bytes that are left, and where the bytes read so far end. -/
structure Cursor where
  rest : List UInt8
  line : Nat
  column : Nat

/-- What reading a piece of syntax gives: the piece and what is left, or an error. -/
abbrev Reader (α : Type) := Cursor → Except Error (α × Cursor)

namespace Cursor

/-- The start of a text. -/
def start (bytes : List UInt8) : Cursor := ⟨bytes, 1, 0⟩

/-- The next byte as a character. -/
def next? (c : Cursor) : Option Char := c.rest.head?.map fun b => Char.ofNat b.toNat

/-- The place after the next byte; at the end of the text the cursor stays. -/
def advance (c : Cursor) : Cursor :=
  match c.rest with
  | [] => c
  | b :: rest => if b = 10 then ⟨rest, c.line + 1, 0⟩ else ⟨rest, c.line, c.column + 1⟩

/-- The place after the next `n` bytes. -/
def advanceBy : Nat → Cursor → Cursor
  | 0, c => c
  | n + 1, c => advanceBy n c.advance

/-- A fault found in what has been read. -/
def fail {α : Type} (c : Cursor) (f : Fault) : Except Error α := .error ⟨f, c.line, c.column⟩

/-- A fault found at the next byte, which counts as read. -/
def failNext {α : Type} (c : Cursor) (f : Fault) : Except Error α := c.advance.fail f

/-- The bytes of `rest` after those that satisfy `p`, with the number of those. -/
def countWhile (p : Char → Bool) : List UInt8 → Nat
  | [] => 0
  | b :: rest => if p (Char.ofNat b.toNat) then countWhile p rest + 1 else 0

/-- The longest run of bytes that satisfy `p`, as characters, and the place after it. -/
def takeWhile (p : Char → Bool) (c : Cursor) : List Char × Cursor :=
  let n := countWhile p c.rest
  ((c.rest.take n).map (fun b => Char.ofNat b.toNat), c.advanceBy n)

/-- The blank space of JSON. -/
def isSpace (c : Char) : Bool := c == ' ' || c == '\n' || c == '\t' || c == '\r'

/-- The place after the blank space that comes next. -/
def skipSpace (c : Cursor) : Cursor := (c.takeWhile isSpace).2

end Cursor

end Interlock.Json

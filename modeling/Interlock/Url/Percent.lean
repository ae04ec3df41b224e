import Interlock.Text.Basic
import Interlock.Text.Utf8

/-!
# Percent encoding

A byte may be written as a percent sign and two hexadecimal digits. Which characters have to be
written so depends on the part of the address; what is not ASCII always has to.
-/

namespace Interlock.Url

open Text

/-! ## Sets of characters -/

/-- Control characters and everything outside ASCII. -/
def isControl (c : Char) : Bool := c.toNat < 0x20 || 0x7E < c.toNat

/-- What is written encoded in a fragment. -/
def inFragmentSet (c : Char) : Bool :=
  isControl c || c == ' ' || c == '"' || c == '<' || c == '>' || c == '\x60'

/-- What is written encoded in a query. In an address with a well-known scheme the apostrophe is,
too. -/
def inQuerySet (special : Bool) (c : Char) : Bool :=
  isControl c || c == ' ' || c == '"' || c == '#' || c == '<' || c == '>' ||
    (special && c == '\x27')

/-- What is written encoded in a path. -/
def inPathSet (c : Char) : Bool :=
  inFragmentSet c || c == '#' || c == '?' || c == '{' || c == '}'

/-- What is written encoded in a name or a password. -/
def inUserinfoSet (c : Char) : Bool :=
  inPathSet c || c == '/' || c == ':' || c == ';' || c == '=' || c == '@' || c == '[' ||
    c == '\\' || c == ']' || c == '^' || c == '|'

/-! ## Encoding and decoding -/

/-- A byte as a percent sign and two digits. -/
def encodeByte (b : UInt8) : List Char :=
  let digit (n : Nat) := if n < 10 then Char.ofNat (48 + n) else Char.ofNat (55 + n)
  ['%', digit (b.toNat / 16), digit (b.toNat % 16)]

/-- A character, encoded if it is in the set. -/
def encodeChar (set : Char → Bool) (c : Char) : List Char :=
  if set c then (Utf8.encodeChar c).flatMap encodeByte else [c]

/-- A text with the characters of the set encoded. -/
def percentEncode (set : Char → Bool) (cs : List Char) : List Char := cs.flatMap (encodeChar set)

/-- The bytes of a text; a percent sign that two hexadecimal digits do not follow stands for
itself. -/
def percentDecode : List Char → List UInt8
  | '%' :: a :: b :: rest =>
    match hexValue? a, hexValue? b with
    | some x, some y => (16 * x + y).toUInt8 :: percentDecode rest
    | _, _ => 0x25 :: percentDecode (a :: b :: rest)
  | c :: rest => Utf8.encodeChar c ++ percentDecode rest
  | [] => []

end Interlock.Url

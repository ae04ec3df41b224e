import Interlock.Json.Cursor
import Interlock.Json.Value
import Interlock.Text.Utf8

/-!
# Reading JSON

`read` accepts one document with blank space around it. Arrays and objects may stand at most 127
deep. A number without a fraction and an exponent stays whole as long as 64 bits hold it. The digits
of a double are gathered in 64 bits, further ones only count as places, and the result is scaled by
a power of ten with the rounding of each step, so the last bit of a long number may differ from the
nearest double.
-/

namespace Interlock.Json

open Text

/-! ## Numbers -/

/-- Appends digits to a number as long as it stays within `bound`; the second part is the digits
that are left. -/
def gather (bound : Nat) : (acc : Nat) → List Char → Nat × List Char
  | acc, [] => (acc, [])
  | acc, d :: ds =>
    let n := acc * 10 + digitValue d
    if bound < n then (acc, d :: ds) else gather bound n ds

/-- The largest significand that is gathered. -/
def significandBound : Nat := Nat.pow 2 64 - 1

/-- The largest exponent that is gathered. -/
def exponentBound : Nat := Nat.pow 2 31 - 1

/-- A power of ten up to `10 ^ 308`. -/
def powerOfTen (k : Nat) : Binary64 := .ofDecimal false 1 k

/-- Multiplies by a power of ten, one rounding a step; `none` if the number gets too large. -/
def scaleByTen (x : Binary64) (exponent : Int) : Option Binary64 :=
  if exponent.natAbs ≤ 308 then
    if 0 ≤ exponent then
      let y := x.mul (powerOfTen exponent.natAbs)
      if y.isInfinite then none else some y
    else some (x.div (powerOfTen exponent.natAbs))
  else if x.isZero then some x
  else if 0 ≤ exponent then none
  else scaleByTen (x.div (powerOfTen 308)) (exponent + 308)
termination_by exponent.natAbs

/-- The double with the given parts. The cursor stands behind the number. -/
def realNumber (negative : Bool) (significand : Nat) (exponent : Int) : Reader Number := fun c =>
  match scaleByTen (.ofNat significand) exponent with
  | some x => .ok (.real (if negative then x.neg else x), c)
  | none => c.fail .numberOutOfRange

/-- Reads an exponent; the cursor stands at its letter. An exponent of more than 31 bits makes every
number zero or too large. -/
def readExponent (negative : Bool) (significand : Nat) (exponent : Int) : Reader Number := fun c =>
  let c := c.advance
  let (down, c) := match c.next? with
    | some '+' => (false, c.advance)
    | some '-' => (true, c.advance)
    | _ => (false, c)
  match c.next? with
  | none => c.fail .endInValue
  | some d =>
    if isDigit d then
      let (ds, after) := c.takeWhile isDigit
      let (n, left) := gather exponentBound 0 ds
      match left with
      | [] => realNumber negative significand (if down then exponent - n else exponent + n) after
      | _ =>
        if significand != 0 && !down then
          (c.advanceBy (ds.length - left.length + 1)).fail .numberOutOfRange
        else .ok (.real (.zero negative), after)
    else c.failNext .invalidNumber

/-- Reads what may follow the digits of a double. -/
def readScale (negative : Bool) (significand : Nat) (exponent : Int) : Reader Number := fun c =>
  match c.next? with
  | some 'e' => readExponent negative significand exponent c
  | some 'E' => readExponent negative significand exponent c
  | _ => realNumber negative significand exponent c

/-- Reads a fraction; the cursor stands at its point. -/
def readFraction (negative : Bool) (significand : Nat) (exponent : Int) : Reader Number := fun c =>
  let c := c.advance
  let (ds, after) := c.takeWhile isDigit
  match ds with
  | [] => if c.rest.isEmpty then c.fail .endInValue else c.failNext .invalidNumber
  | ds =>
    let (n, left) := gather significandBound significand ds
    readScale negative n (exponent - (ds.length - left.length : Nat)) after

/-- A number without a fraction and an exponent. Minus zero is a double. -/
def wholeNumber (negative : Bool) (n : Nat) : Number :=
  if !negative then .whole n
  else if n = 0 ∨ Nat.pow 2 63 < n then .real (Binary64.ofNat n).neg
  else .whole (-n)

/-- Reads a number; the cursor stands behind its minus sign. -/
def readNumber (negative : Bool) : Reader Number := fun c =>
  match c.next? with
  | none => c.fail .endInValue
  | some d =>
    if !isDigit d then c.failNext .invalidNumber
    else
      let (ds, after) := c.takeWhile isDigit
      if d = '0' ∧ 1 < ds.length then c.advance.failNext .invalidNumber
      else
        let (n, left) := gather significandBound 0 ds
        match after.next? with
        | some '.' => readFraction negative n left.length after
        | some 'e' => readExponent negative n left.length after
        | some 'E' => readExponent negative n left.length after
        | _ =>
          if left.isEmpty then .ok (wholeNumber negative n, after)
          else realNumber negative n left.length after

/-! ## Strings -/

/-- Reads four hexadecimal digits. All four bytes count as read before they are looked at. -/
def readHex4 : Reader Nat := fun c =>
  if c.rest.length < 4 then (c.advanceBy c.rest.length).fail .endInString
  else
    let digits := (c.rest.take 4).mapM fun b => hexValue? (Char.ofNat b.toNat)
    let after := c.advanceBy 4
    match digits with
    | some ds => .ok (ds.foldl (fun n d => n * 16 + d) 0, after)
    | none => after.fail .invalidEscape

/-- Reads one fixed character of the second half of a surrogate pair. -/
def readPairMark (mark : Char) : Reader Unit := fun c =>
  match c.next? with
  | none => c.fail .endInString
  | some d => if d = mark then .ok ((), c.advance) else c.failNext .unexpectedEndOfHexEscape

/-- Reads an escape by number; the cursor stands behind its letter. Two surrogates stand for one
character. -/
def readUnicodeEscape : Reader Char := fun c => do
  let (n, c) ← readHex4 c
  if 0xDC00 ≤ n ∧ n ≤ 0xDFFF then c.fail .loneLeadingSurrogate
  else if n < 0xD800 ∨ 0xDBFF < n then .ok (Char.ofNat n, c)
  else
    let (_, c) ← readPairMark '\\' c
    let (_, c) ← readPairMark 'u' c
    let (low, c) ← readHex4 c
    if low < 0xDC00 ∨ 0xDFFF < low then c.fail .loneLeadingSurrogate
    else .ok (Char.ofNat ((n - 0xD800) * 0x400 + (low - 0xDC00) + 0x10000), c)

/-- Reads an escape; the cursor stands behind its backslash. -/
def readEscape : Reader Char := fun c =>
  let after := c.advance
  match c.next? with
  | none => c.fail .endInString
  | some '"' => .ok ('"', after)
  | some '\\' => .ok ('\\', after)
  | some '/' => .ok ('/', after)
  | some 'b' => .ok ('\x08', after)
  | some 'f' => .ok ('\x0c', after)
  | some 'n' => .ok ('\n', after)
  | some 'r' => .ok ('\r', after)
  | some 't' => .ok ('\t', after)
  | some 'u' => readUnicodeEscape after
  | some _ => after.fail .invalidEscape

/-- Reads the rest of a string after the bytes `acc`, which are held in reverse. Each step reads a
byte, so as many steps as bytes are enough. -/
def readStringFrom : (steps : Nat) → (acc : List UInt8) → Reader String
  | 0, _, c => c.fail .endInString
  | steps + 1, acc, c =>
    match c.rest with
    | [] => c.fail .endInString
    | b :: _ =>
      let after := c.advance
      if b = 0x22 then
        match Utf8.decode? acc.reverse with
        | some cs => .ok (String.ofList cs, after)
        | none => after.fail .invalidCodePoint
      else if b = 0x5C then do
        let (ch, after) ← readEscape after
        readStringFrom steps ((Utf8.encodeChar ch).reverse ++ acc) after
      else if b < 0x20 then after.fail .controlCharacter
      else readStringFrom steps (b :: acc) after

/-- Reads a string; the cursor stands behind its first quote. -/
def readString : Reader String := fun c => readStringFrom (c.rest.length + 1) [] c

/-! ## Documents -/

/-- Reads the rest of a word. -/
def readWord (value : Json) : List Char → Reader Json
  | [], c => .ok (value, c)
  | w :: ws, c =>
    match c.next? with
    | none => c.fail .endInValue
    | some d => if d = w then readWord value ws c.advance else c.failNext .expectedIdent

/-- Reads items up to the closing bracket. The items so far are held in reverse; each item reads a
byte, so as many steps as bytes are enough. -/
def readItems (item : Reader Json) : (steps : Nat) → (items : List Json) → Reader (List Json)
  | 0, _, c => c.fail .endInList
  | steps + 1, items, c =>
    let c := c.skipSpace
    match c.next? with
    | none => c.fail .endInList
    | some ']' => .ok (items.reverse, c.advance)
    | some d =>
      if items.isEmpty then do
        let (j, c) ← item c
        readItems item steps [j] c
      else if d = ',' then
        let c := c.advance.skipSpace
        match c.next? with
        | none => c.fail .endInValue
        | some ']' => c.failNext .trailingComma
        | some _ => do
          let (j, c) ← item c
          readItems item steps (j :: items) c
      else c.failNext .expectedListCommaOrEnd

/-- Reads one member; the cursor stands at the quote of its key. -/
def readMember (value : Reader Json) : Reader (String × Json) := fun c => do
  let (key, c) ← readString c.advance
  let c := c.skipSpace
  match c.next? with
  | none => c.fail .endInObject
  | some ':' =>
    let (j, c) ← value c.advance
    .ok ((key, j), c)
  | some _ => c.failNext .expectedColon

/-- Reads members up to the closing brace. -/
def readMembers (value : Reader Json) :
    (steps : Nat) → (first : Bool) → (members : List (String × Json)) →
      Reader (List (String × Json))
  | 0, _, _, c => c.fail .endInObject
  | steps + 1, first, members, c =>
    let c := c.skipSpace
    match c.next? with
    | none => c.fail .endInObject
    | some '}' => .ok (members, c.advance)
    | some d =>
      if first then
        if d = '"' then do
          let (m, c) ← readMember value c
          readMembers value steps false (insertMember m.1 m.2 members) c
        else c.failNext .keyNotString
      else if d = ',' then
        let c := c.advance.skipSpace
        match c.next? with
        | none => c.fail .endInValue
        | some '"' => do
          let (m, c) ← readMember value c
          readMembers value steps false (insertMember m.1 m.2 members) c
        | some '}' => c.failNext .trailingComma
        | some _ => c.failNext .keyNotString
      else c.failNext .expectedObjectCommaOrEnd

/-- Reads a document in which arrays and objects stand at most `levels` deep. -/
def readValue : (levels : Nat) → Reader Json
  | levels, c =>
    let c := c.skipSpace
    let after := c.advance
    match c.next? with
    | none => c.fail .endInValue
    | some 'n' => readWord .null ['u', 'l', 'l'] after
    | some 't' => readWord (.bool true) ['r', 'u', 'e'] after
    | some 'f' => readWord (.bool false) ['a', 'l', 's', 'e'] after
    | some '"' => do
      let (s, c) ← readString after
      .ok (.string s, c)
    | some '-' => do
      let (n, c) ← readNumber true after
      .ok (.number n, c)
    | some '[' =>
      match levels with
      | 0 => c.failNext .recursionLimit
      | levels + 1 => do
        let (items, c) ← readItems (readValue levels) (after.rest.length + 1) [] after
        .ok (.array items, c)
    | some '{' =>
      match levels with
      | 0 => c.failNext .recursionLimit
      | levels + 1 => do
        let (members, c) ← readMembers (readValue levels) (after.rest.length + 1) true [] after
        .ok (.object members, c)
    | some d =>
      if isDigit d then do
        let (n, c) ← readNumber false c
        .ok (.number n, c)
      else c.failNext .expectedValue

/-- The greatest depth of a document. -/
def maxLevels : Nat := 127

/-- Reads a text that holds one document. -/
def readBytes (bytes : List UInt8) : Except Error Json := do
  let (j, c) ← readValue maxLevels (.start bytes)
  let c := c.skipSpace
  if c.rest.isEmpty then .ok j else c.failNext .trailingCharacters

/-- Reads a text that holds one document. -/
def read (s : String) : Except Error Json := readBytes (Utf8.encode s.toList)

/-- The document of a text, if it holds one. -/
def read? (s : String) : Option Json := (read s).toOption

end Interlock.Json

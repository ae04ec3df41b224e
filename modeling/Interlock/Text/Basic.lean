/-!
# Blank space, ASCII letters and digits

The character classes that the readers of this library share. Blank space is the Unicode
property `White_Space`; letters, digits and case are ASCII, because every keyword, number
and scheme name that is compared without regard to case is ASCII.
-/

namespace Interlock.Text

/-! ## Blank space -/

/-- The characters with the Unicode property `White_Space`. -/
def isBlank (c : Char) : Bool :=
  let n := c.toNat
  (0x09 ≤ n && n ≤ 0x0D) || n == 0x20 || n == 0x85 || n == 0xA0 || n == 0x1680 ||
    (0x2000 ≤ n && n ≤ 0x200A) || n == 0x2028 || n == 0x2029 || n == 0x202F ||
    n == 0x205F || n == 0x3000

/-- A list of characters without the blank ones at its start. -/
def trimStart (cs : List Char) : List Char := cs.dropWhile isBlank

/-- A list of characters without the blank ones at its end. -/
def trimEnd (cs : List Char) : List Char := (cs.reverse.dropWhile isBlank).reverse

/-- A list of characters without the blank ones at both ends. -/
def trimChars (cs : List Char) : List Char := trimEnd (trimStart cs)

/-- A text without the blank characters at both ends. -/
def trim (s : String) : String := String.ofList (trimChars s.toList)

/-! ## ASCII letters -/

/-- An upper-case ASCII letter in lower case; every other character is left alone. -/
def lowerChar (c : Char) : Char :=
  if 'A' ≤ c ∧ c ≤ 'Z' then Char.ofNat (c.toNat + 32) else c

/-- A text with its ASCII letters in lower case. -/
def lower (s : String) : String := String.ofList (s.toList.map lowerChar)

/-- Texts that agree up to the case of ASCII letters. -/
def sameIgnoringCase (s t : String) : Bool :=
  s.toList.map lowerChar == t.toList.map lowerChar

/-- The ASCII letters. -/
def isLetter (c : Char) : Bool := ('a' ≤ c && c ≤ 'z') || ('A' ≤ c && c ≤ 'Z')

/-! ## Digits -/

/-- The ASCII decimal digits. -/
def isDigit (c : Char) : Bool := '0' ≤ c && c ≤ '9'

/-- The value of an ASCII decimal digit. -/
def digitValue (c : Char) : Nat := c.toNat - 48

/-- The number that a list of decimal digits writes, continuing from `acc`. -/
def digitsValue (acc : Nat) (cs : List Char) : Nat :=
  cs.foldl (fun n c => n * 10 + digitValue c) acc

/-- The value of a hexadecimal digit of either case. -/
def hexValue? (c : Char) : Option Nat :=
  if '0' ≤ c ∧ c ≤ '9' then some (c.toNat - 48)
  else if 'a' ≤ c ∧ c ≤ 'f' then some (c.toNat - 87)
  else if 'A' ≤ c ∧ c ≤ 'F' then some (c.toNat - 55)
  else none

/-- The hexadecimal digit of a value below sixteen, with lower-case letters. -/
def hexDigit (n : Nat) : Char :=
  if n < 10 then Char.ofNat (48 + n) else Char.ofNat (87 + n)

/-- A number in decimal. -/
def ofNat (n : Nat) : String := String.ofList (Nat.toDigits 10 n)

/-- An integer in decimal, with a minus sign if it is negative. -/
def ofInt : Int → String
  | .ofNat n => ofNat n
  | .negSucc n => "-" ++ ofNat (n + 1)

/-- A number in decimal with zeros in front, at least `width` digits. -/
def zeroPadded (width n : Nat) : String :=
  let ds := Nat.toDigits 10 n
  String.ofList (List.replicate (width - ds.length) '0' ++ ds)

/-- A text filled up with spaces to `width` characters; a longer one is left alone. -/
def padEnd (width : Nat) (s : String) : String :=
  s ++ String.ofList (List.replicate (width - s.toList.length) ' ')

/-- The texts in order, with `sep` between each two. -/
def join (sep : String) : List String → String
  | [] => ""
  | [s] => s
  | s :: rest => s ++ sep ++ join sep rest

/-- The lines of a text: it is cut after each line feed, a carriage return before the line feed
goes with it, and a last line without a line feed counts if it is not empty. -/
def lines (cs : List Char) : List (List Char) :=
  let rec go (line : List Char) : List Char → List (List Char)
    | [] => if line.isEmpty then [] else [line.reverse]
    | '\n' :: rest =>
      (match line with
        | '\r' :: before => before.reverse
        | _ => line.reverse) :: go [] rest
    | c :: rest => go (c :: line) rest
  go [] cs

end Interlock.Text

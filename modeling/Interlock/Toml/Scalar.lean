import Interlock.Number.Reader
import Interlock.Toml.Table

/-!
# Numbers and moments of a document

A number or a moment is a word of letters, digits and a few marks, which is read as a whole. The
digits of a number may be grouped with single underscores. A moment is a date, a time of day or
both, and is kept as text in its usual form.
-/

namespace Interlock.Toml

open Text

/-! ## Numbers -/

/-- Digits without the underscores that group them; each underscore stands between two digits.
`after` says whether a digit stands before. -/
def ungroup (isDigit : Char → Bool) (after : Bool) : List Char → Option (List Char)
  | [] => if after then some [] else none
  | c :: cs =>
    if isDigit c then (ungroup isDigit true cs).map (c :: ·)
    else if c = '_' ∧ after then ungroup isDigit false cs
    else none

/-- The digits of a decimal number without a sign; a zero in front stands alone. -/
def decimalDigits (cs : List Char) : Option (List Char) :=
  if cs.head? = some '0' ∧ 1 < cs.length then none else ungroup isDigit false cs

/-- The value of digits in some base. -/
def inBase (base : Nat) (digits : List Char) : Nat :=
  digits.foldl (fun n c => n * base + (hexValue? c).getD 0) 0

/-- Whether a character is a digit in some base. -/
def isDigitIn (base : Nat) (c : Char) : Bool := (hexValue? c).any (· < base)

/-- An integer of 64 bits. -/
def inRange (i : Int) : Option Value :=
  if -Int.pow 2 63 ≤ i ∧ i < Int.pow 2 63 then some (.integer i) else none

/-- An integer, in decimal with a sign or in another base without one. -/
def readInteger? (word : List Char) : Option Value :=
  let based (base : Nat) (cs : List Char) : Option Value := do
    inRange (inBase base (← ungroup (isDigitIn base) false cs))
  match word with
  | '0' :: 'x' :: cs => based 16 cs
  | '0' :: 'o' :: cs => based 8 cs
  | '0' :: 'b' :: cs => based 2 cs
  | _ => do
    let (negative, cs) := Number.takeSign word
    let n := digitsValue 0 (← decimalDigits cs)
    inRange (if negative then -n else n)

/-- What stands before and after the first character with a property, if there is one. -/
def splitAt? (p : Char → Bool) (cs : List Char) : List Char × Option (List Char) :=
  match cs.dropWhile (fun c => !p c) with
  | [] => (cs, none)
  | _ :: rest => (cs.takeWhile (fun c => !p c), some rest)

/-- A float: a decimal number with a fraction or an exponent, or a word for what is not finite.
A number that is too large is refused. -/
def readFloat? (word : List Char) : Option Value :=
  let (negative, cs) := Number.takeSign word
  if cs = ['i', 'n', 'f'] then some (.float (.infinite negative))
  else if cs = ['n', 'a', 'n'] then some (.float .nan)
  else do
    let (mantissa, exponent) := splitAt? (lowerChar · == 'e') cs
    let (whole, fraction) := splitAt? (· == '.') mantissa
    let digits ← decimalDigits whole
    let places ← (fraction.map (ungroup isDigit false)).getD (some [])
    let (down, power) := Number.takeSign (exponent.getD ['0'])
    let power ← ungroup isDigit false power
    let n : Int := digitsValue 0 power
    let x := Binary64.ofDecimal negative (digitsValue 0 (digits ++ places))
      ((if down then -n else n) - places.length)
    if fraction.isNone && exponent.isNone || x == .infinite false then none else some (.float x)

/-! ## Moments -/

/-- The value of exactly `n` digits, and what follows. -/
def takeDigits? (n : Nat) (cs : List Char) : Option (Nat × List Char) :=
  let ds := cs.take n
  if ds.length = n ∧ ds.all isDigit then some (digitsValue 0 ds, cs.drop n) else none

/-- What follows a mark. -/
def takeMark? (mark : Char) : List Char → Option (List Char)
  | [] => none
  | c :: cs => if c = mark then some cs else none

/-- The days of a month. -/
def daysIn (year month : Nat) : Nat :=
  if month = 2 then if year % 4 = 0 ∧ (year % 100 ≠ 0 ∨ year % 400 = 0) then 29 else 28
  else if [4, 6, 9, 11].contains month then 30
  else 31

/-- A date and what follows it. -/
def takeDate? (cs : List Char) : Option (String × List Char) := do
  let (year, cs) ← takeDigits? 4 cs
  let (month, cs) ← takeDigits? 2 (← takeMark? '-' cs)
  let (day, cs) ← takeDigits? 2 (← takeMark? '-' cs)
  if 1 ≤ month ∧ month ≤ 12 ∧ 1 ≤ day ∧ day ≤ daysIn year month then
    some (zeroPadded 4 year ++ "-" ++ zeroPadded 2 month ++ "-" ++ zeroPadded 2 day, cs)
  else none

/-- The fraction of a second, to nine places and without the zeros at its end; what follows. -/
def takeFraction? (cs : List Char) : Option (String × List Char) :=
  match cs with
  | '.' :: cs =>
    let ds := cs.takeWhile isDigit
    let shown := ((ds.take 9).reverse.dropWhile (· == '0')).reverse
    if ds.isEmpty then none
    else some (if shown.isEmpty then "" else String.ofList ('.' :: shown), cs.dropWhile isDigit)
  | cs => some ("", cs)

/-- A time of day and what follows it. -/
def takeTime? (cs : List Char) : Option (String × List Char) := do
  let (hour, cs) ← takeDigits? 2 cs
  let (minute, cs) ← takeDigits? 2 (← takeMark? ':' cs)
  let (second, cs) ← takeDigits? 2 (← takeMark? ':' cs)
  let (fraction, cs) ← takeFraction? cs
  if hour ≤ 23 ∧ minute ≤ 59 ∧ second ≤ 60 then
    some (zeroPadded 2 hour ++ ":" ++ zeroPadded 2 minute ++ ":" ++ zeroPadded 2 second ++ fraction,
      cs)
  else none

/-- The distance to the time of day in UTC, to the end of a word. -/
def readOffset? (cs : List Char) : Option String :=
  match cs with
  | [] => some ""
  | c :: rest =>
    if (c = 'Z' ∨ c = 'z') ∧ rest.isEmpty then some "Z"
    else if c = '+' ∨ c = '-' then do
      let (hour, cs) ← takeDigits? 2 rest
      let (minute, cs) ← takeDigits? 2 (← takeMark? ':' cs)
      if hour ≤ 23 ∧ minute ≤ 59 ∧ cs.isEmpty then
        some (String.ofList [c] ++ zeroPadded 2 hour ++ ":" ++ zeroPadded 2 minute)
      else none
    else none

/-- A date with a time of day, whose parts are two words or one with a mark between them. -/
def readMoment? (date : String) (cs : List Char) : Option Value := do
  let (time, cs) ← takeTime? cs
  some (.text (date ++ "T" ++ time ++ (← readOffset? cs)))

/-- A date, a time of day, or both in one word. -/
def readDateOrTime? (word : List Char) : Option Value :=
  match takeDate? word with
  | some (date, []) => some (.text date)
  | some (date, c :: cs) => if lowerChar c = 't' then readMoment? date cs else none
  | none =>
    match takeTime? word with
    | some (time, []) => some (.text time)
    | _ => none

/-- A word of a document: a truth value, a number or a moment. -/
def readWord? (word : List Char) : Option Value :=
  if word = ['t', 'r', 'u', 'e'] then some (.bool true)
  else if word = ['f', 'a', 'l', 's', 'e'] then some (.bool false)
  else ((readDateOrTime? word).or (readFloat? word)).or (readInteger? word)

end Interlock.Toml

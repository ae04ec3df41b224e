import Interlock.Text.Basic

/-!
# Punycode

A label of a domain name in ASCII. The ASCII characters come first; the others follow as numbers
that say how far an imagined counter, which runs through the code points in order and for each of
them through the places of the label, has to go on. The numbers have variable length in base 36,
and a bias that adapts to the numbers so far keeps them short.
-/

namespace Interlock.Url.Punycode

/-! ## Digits and bias -/

/-- The digit of a value below 36. -/
def digitChar (d : Nat) : Char := if d < 26 then Char.ofNat (97 + d) else Char.ofNat (22 + d)

/-- The value of a digit of either case. -/
def digitValue? (c : Char) : Option Nat :=
  if 'a' ≤ c ∧ c ≤ 'z' then some (c.toNat - 97)
  else if 'A' ≤ c ∧ c ≤ 'Z' then some (c.toNat - 65)
  else if '0' ≤ c ∧ c ≤ '9' then some (c.toNat - 22)
  else none

/-- The threshold of the digit at place `k`, which is a multiple of 36. -/
def threshold (bias k : Nat) : Nat :=
  if k ≤ bias then 1 else if bias + 26 ≤ k then 26 else k - bias

/-- Divides by 35 until the number is at most 455; counts the divisions in steps of 36. -/
def shrink (delta k : Nat) : Nat × Nat :=
  if 455 < delta then shrink (delta / 35) (k + 36) else (delta, k)
termination_by delta
decreasing_by omega

/-- The bias after a number `delta`, when `count` characters have been placed. -/
def adapt (delta count : Nat) (first : Bool) : Nat :=
  let d := if first then delta / 700 else delta / 2
  let (d, k) := shrink (d + d / count) 0
  k + 36 * d / (d + 38)

/-! ## Encoding -/

/-- The digits of a number, from the place `k` on. -/
def encodeNumber (bias k q : Nat) : List Char :=
  let t := threshold bias k
  if h : q < t then [digitChar q]
  else digitChar (t + (q - t) % (36 - t)) :: encodeNumber bias (k + 36) ((q - t) / (36 - t))
termination_by q
decreasing_by
  have h₁ : 1 ≤ threshold bias k := by unfold threshold; split <;> (try split) <;> omega
  exact Nat.lt_of_le_of_lt (Nat.div_le_self _ _) (by omega)

/-- The encoder: what has been written, the distance since the last number, the bias, and how many
characters have been placed. -/
structure Encoder where
  out : List Char
  delta : Nat
  bias : Nat
  placed : Nat

/-- Passes one character of the label while the counter stands at the code point `n`. -/
def Encoder.pass (basic n : Nat) (e : Encoder) (c : Char) : Encoder :=
  if c.toNat < n then { e with delta := e.delta + 1 }
  else if c.toNat = n then
    { out := e.out ++ encodeNumber e.bias 36 e.delta
      delta := 0
      bias := adapt e.delta (e.placed + 1) (e.placed == basic)
      placed := e.placed + 1 }
  else e

/-- Moves the counter through the code points of the label, which are given in order. -/
def Encoder.run (label : List Char) (basic : Nat) : List Nat → (start : Nat) → Encoder → Encoder
  | [], _, e => e
  | n :: rest, start, e =>
    let e := { e with delta := e.delta + (n - start) * (e.placed + 1) }
    let e := label.foldl (Encoder.pass basic n) e
    run label basic rest (n + 1) { e with delta := e.delta + 1 }

/-- The code points outside ASCII, in order and each once. -/
def codePoints (label : List Char) : List Nat :=
  let rec place (n : Nat) : List Nat → List Nat
    | [] => [n]
    | m :: ms => if n < m then n :: m :: ms else if n = m then m :: ms else m :: place n ms
  (label.filter (128 ≤ ·.toNat)).foldr (fun c ns => place c.toNat ns) []

/-- The encoded label, without any mark that it is one. -/
def encode (label : List Char) : List Char :=
  let basic := label.filter (·.toNat < 128)
  let start := if basic.isEmpty then [] else basic ++ ['-']
  start ++ (Encoder.run label basic.length (codePoints label) 128 ⟨[], 0, 72, basic.length⟩).out

/-! ## Decoding -/

/-- Reads a number: its value, added to `i`, and the rest. -/
def decodeNumber (bias : Nat) : List Char → (k w i : Nat) → Option (Nat × List Char)
  | [], _, _, _ => none
  | c :: rest, k, w, i =>
    match digitValue? c with
    | none => none
    | some d =>
      let t := threshold bias k
      let i := i + d * w
      if d < t then some (i, rest) else decodeNumber bias rest (k + 36) (w * (36 - t)) i

/-- Reads the numbers one after the other and puts the characters into their places. There are at
most as many numbers as digits. -/
def decodeFrom : (steps : Nat) → (digits : List Char) → (n i bias : Nat) → (first : Bool) →
    (out : List Char) → Option (List Char)
  | 0, _, _, _, _, _, _ => none
  | _ + 1, [], _, _, _, _, out => some out
  | steps + 1, digits, n, i, bias, first, out =>
    match decodeNumber bias digits 36 1 i with
    | none => none
    | some (j, rest) =>
      let count := out.length + 1
      let n := n + j / count
      let place := j % count
      if n < 0x110000 ∧ ¬(0xD800 ≤ n ∧ n ≤ 0xDFFF) then
        decodeFrom steps rest n (place + 1) (adapt (j - i) count first) false
          (out.take place ++ Char.ofNat n :: out.drop place)
      else none

/-- The label that is encoded; `none` if it is not well formed. -/
def decode? (cs : List Char) : Option (List Char) :=
  let tail := (cs.reverse.takeWhile (· != '-')).reverse
  let basic := (cs.take (cs.length - tail.length)).dropLast
  if cs.all (·.toNat < 128) then
    decodeFrom (tail.length + 1) tail 128 0 72 true basic
  else none

end Interlock.Url.Punycode

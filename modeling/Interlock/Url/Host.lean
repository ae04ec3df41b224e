import Interlock.Url.Domain
import Interlock.Url.Percent

/-!
# Hosts

A host is a domain name or an address of version 4 or 6. A name whose last label is a number has to
be an address; its parts may be decimal, octal or hexadecimal, and the last part fills what is left
of the four bytes. An address of version 6 is written with its longest run of zeros left out.
-/

namespace Interlock.Url

open Text

/-- Why a text is no address. -/
inductive ParseError
  | emptyHost
  | invalidDomain
  | invalidPort
  | invalidIpv4
  | invalidIpv6
  | invalidDomainCharacter
  | relativeWithoutBase
  deriving DecidableEq, Repr

/-- The wording of a fault in an address. -/
def ParseError.message : ParseError → String
  | .emptyHost => "empty host"
  | .invalidDomain => "invalid international domain name"
  | .invalidPort => "invalid port number"
  | .invalidIpv4 => "invalid IPv4 address"
  | .invalidIpv6 => "invalid IPv6 address"
  | .invalidDomainCharacter => "invalid domain character"
  | .relativeWithoutBase => "relative URL without a base"

/-- A host. -/
inductive Host
  | domain (name : String)
  | ipv4 (address : Nat)
  | ipv6 (pieces : List Nat)
  deriving DecidableEq, Repr

/-! ## Version 4 -/

/-- The value of a text in a base; `none` if a character is no digit of it. -/
def readBase? (base : Nat) (cs : List Char) : Option Nat :=
  cs.foldl (fun acc c =>
    match acc, hexValue? c with
    | some n, some d => if d < base then some (n * base + d) else none
    | _, _ => none) (some 0)

/-- A number of an address of version 4: a leading `0x` or `0` gives the base, and nothing after it
counts as zero. -/
def readIpv4Number? : List Char → Option Nat
  | [] => none
  | '0' :: 'x' :: cs => readBase? 16 cs
  | '0' :: 'X' :: cs => readBase? 16 cs
  | ['0'] => some 0
  | '0' :: cs => readBase? 8 cs
  | cs => readBase? 10 cs

/-- The labels of a name without an empty one at its end. -/
def properLabels (name : List Char) : List (List Char) :=
  let parts := name.splitOn '.'
  if parts.getLast? = some [] then parts.dropLast else parts

/-- Whether a name has to be an address of version 4: its last label is a number, even a malformed
one. -/
def endsInNumber (name : List Char) : Bool :=
  match (properLabels name).getLast? with
  | none => false
  | some last => (!last.isEmpty && last.all isDigit) || (readIpv4Number? last).isSome

/-- The address of version 4 that a name writes. -/
def readIpv4 (name : List Char) : Except ParseError Nat :=
  let parts := properLabels name
  match parts.mapM readIpv4Number? with
  | none => .error .invalidIpv4
  | some numbers =>
    let front := numbers.dropLast
    let last := numbers.getLast?.getD 0
    if 4 < parts.length || front.any (255 < ·) || Nat.pow 256 (4 - front.length) ≤ last then
      .error .invalidIpv4
    else
      .ok (front.foldl (fun n p => n * 256 + p) 0 * Nat.pow 256 (4 - front.length) + last)

/-- An address of version 4 in its usual form. -/
def ipv4Text (n : Nat) : String :=
  join "." ([n / Nat.pow 256 3, n / Nat.pow 256 2 % 256, n / 256 % 256, n % 256].map ofNat)

/-! ## Version 6 -/

/-- One byte of a version 4 address in decimal, without leading zeros. -/
def readByte? (cs : List Char) : Option Nat :=
  if cs.isEmpty || !cs.all isDigit || (1 < cs.length && cs.head? == some '0') then none
  else (some (digitsValue 0 cs)).filter (· < 256)

/-- The two pieces that four bytes with points between them fill. -/
def readEmbedded? (cs : List Char) : Option (List Nat) :=
  match (cs.splitOn '.').mapM readByte? with
  | some [a, b, c, d] => some [a * 256 + b, c * 256 + d]
  | _ => none

/-- The pieces between colons; the last one may be an address of version 4. -/
def readPieces? : List (List Char) → Option (List Nat)
  | [] => some []
  | [last] =>
    if last.contains '.' then readEmbedded? last
    else if last.isEmpty || 4 < last.length then none
    else (readBase? 16 last).map ([·])
  | p :: rest =>
    if p.isEmpty || 4 < p.length then none
    else
      match readBase? 16 p, readPieces? rest with
      | some n, some ns => some (n :: ns)
      | _, _ => none

/-- The parts before and after the first double colon. -/
def splitGap : List Char → Option (List Char × List Char)
  | [] => none
  | ':' :: ':' :: rest => some ([], rest)
  | c :: rest => (splitGap rest).map fun (a, b) => (c :: a, b)

/-- The pieces of a side of the gap; a side may be empty. -/
def readSide? (cs : List Char) : Option (List Nat) :=
  if cs.isEmpty then some [] else readPieces? (cs.splitOn ':')

/-- The eight pieces of an address of version 6. A double colon stands for at least one zero, and
only the end of the whole address may be an address of version 4. -/
def readIpv6 (cs : List Char) : Except ParseError (List Nat) :=
  match splitGap cs with
  | none =>
    match readPieces? (cs.splitOn ':') with
    | some pieces => if pieces.length = 8 then .ok pieces else .error .invalidIpv6
    | none => .error .invalidIpv6
  | some (front, back) =>
    match readSide? front, readSide? back with
    | some a, some b =>
      if 8 ≤ a.length + b.length ∨ front.contains '.' then .error .invalidIpv6
      else .ok (a ++ List.replicate (8 - a.length - b.length) 0 ++ b)
    | _, _ => .error .invalidIpv6

/-- The length of the run of zeros at the start. -/
def zeroRun : List Nat → Nat
  | 0 :: rest => zeroRun rest + 1
  | _ => 0

/-- The place and the length of the longest run of zeros, the first of several. -/
def longestZeroRun : (place : Nat) → List Nat → Nat × Nat
  | _, [] => (0, 0)
  | place, p :: rest =>
    let here := zeroRun (p :: rest)
    let later := longestZeroRun (place + 1) rest
    if later.2 ≤ here then (place, here) else later

/-- A number in hexadecimal. -/
def hexText (n : Nat) : String := String.ofList (Nat.toDigits 16 n)

/-- An address of version 6 with its longest run of at least two zeros left out. -/
def ipv6Text (pieces : List Nat) : String :=
  let (place, length) := longestZeroRun 0 pieces
  if length < 2 then join ":" (pieces.map hexText)
  else
    join ":" ((pieces.take place).map hexText) ++ "::" ++
      join ":" ((pieces.drop (place + length)).map hexText)

/-! ## Hosts -/

/-- An address of version 6 in brackets, if there is a bracket. -/
def readBracketed? : List Char → Option (Except ParseError Host)
  | '[' :: cs =>
    some (if cs.getLast? = some ']' then (readIpv6 cs.dropLast).map .ipv6
      else .error .invalidIpv6)
  | _ => none

/-- The host of an address with a well-known scheme; a domain is brought into its form by `Idna`. -/
def readHost [Idna] (cs : List Char) : Except ParseError Host :=
  match readBracketed? cs with
  | some r => r
  | none =>
    match (Utf8.decode? (percentDecode cs)).bind Idna.toAscii? with
    | none => .error .invalidDomain
    | some [] => .error .emptyHost
    | some name =>
      if endsInNumber name then (readIpv4 name).map .ipv4 else .ok (.domain (String.ofList name))

/-- The host of an address with another scheme: it is taken as it is. -/
def readOpaqueHost (cs : List Char) : Except ParseError Host :=
  match readBracketed? cs with
  | some r => r
  | none =>
    if cs.any (fun c => c == '\x00' || " #/:<>?@[\\]^|".toList.contains c) then
      .error .invalidDomainCharacter
    else .ok (.domain (String.ofList (percentEncode isControl cs)))

/-- A host in its usual form. -/
def Host.text : Host → String
  | .domain name => name
  | .ipv4 n => ipv4Text n
  | .ipv6 pieces => "[" ++ ipv6Text pieces ++ "]"

end Interlock.Url

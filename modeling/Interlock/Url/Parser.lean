import Interlock.Url.Basic

/-!
# Reading addresses

An absolute address is read part by part: scheme, name and password, host, port, path, query and
fragment. Blank space and controls around it do not count, and neither do tabs and line breaks
anywhere. In an address with a well-known scheme a backslash is as good as a slash, and any number
of slashes may stand before the host.
-/

namespace Interlock.Url

open Text

/-! ## Scheme -/

/-- A text without tabs and line breaks, and without controls and spaces at both ends. -/
def clean (cs : List Char) : List Char :=
  let isEdge (c : Char) : Bool := c.toNat ≤ 0x20
  (((cs.dropWhile isEdge).reverse.dropWhile isEdge).reverse).filter
    fun c => !(c == '\t' || c == '\n' || c == '\r')

/-- Whether a character may follow the first letter of a scheme. -/
def isSchemeChar (c : Char) : Bool := isLetter c || isDigit c || c == '+' || c == '-' || c == '.'

/-- The scheme in lower case and what follows its colon. -/
def takeScheme? (cs : List Char) : Option (String × List Char) :=
  if cs.head?.any isLetter then
    match cs.dropWhile isSchemeChar with
    | ':' :: rest => some (String.ofList ((cs.takeWhile isSchemeChar).map lowerChar), rest)
    | _ => none
  else none

/-- Whether a character separates the parts of a path. -/
def isSlash (special : Bool) (c : Char) : Bool := c == '/' || (special && c == '\\')

/-- Whether a character ends the part before the path. -/
def endsAuthority (special : Bool) (c : Char) : Bool := isSlash special c || c == '?' || c == '#'

/-! ## Name, password, host and port -/

/-- What stands before and after the last at-sign, if there is one. -/
def splitLastAt (cs : List Char) : Option (List Char × List Char) :=
  let after := (cs.reverse.takeWhile (· != '@')).reverse
  if after.length = cs.length then none
  else some (cs.take (cs.length - after.length - 1), after)

/-- The encoded name and password. -/
def readUserinfo (cs : List Char) : String × String :=
  let name := cs.takeWhile (· != ':')
  let password := (cs.dropWhile (· != ':')).drop 1
  (String.ofList (percentEncode inUserinfoSet name),
    String.ofList (percentEncode inUserinfoSet password))

/-- The host and what follows it; a colon inside brackets belongs to the host. -/
def takeHost : (bracketed : Bool) → List Char → List Char × List Char
  | _, [] => ([], [])
  | bracketed, c :: cs =>
    if c = ':' ∧ !bracketed then ([], c :: cs)
    else
      let inside := if c = '[' then true else if c = ']' then false else bracketed
      let (host, rest) := takeHost inside cs
      (c :: host, rest)

/-- The port; none if it is missing or goes without saying. -/
def readPort (scheme : String) (cs : List Char) : Except ParseError (Option Nat) :=
  let digits := cs.takeWhile isDigit
  let rest := cs.dropWhile isDigit
  let port := digitsValue 0 digits
  if 65535 < port then .error .invalidPort
  else if !rest.isEmpty && rest.head? != some '\\' then .error .invalidPort
  else if digits.isEmpty || some port == defaultPort? scheme then .ok none
  else .ok (some port)

/-- Name, password, host and port. -/
structure Authority where
  username : String
  password : String
  host : Host
  port : Option Nat

/-- Reads what stands between the slashes and the path. A host may be empty only if the scheme is
not well known and there is neither a name nor a port. -/
def readAuthority [Idna] (scheme : String) (cs : List Char) : Except ParseError Authority := do
  let special := isSpecial scheme
  let split := splitLastAt cs
  let rest := (split.map (·.2)).getD cs
  let (username, password) := (split.map fun s => readUserinfo s.1).getD ("", "")
  let named := username != "" || password != ""
  let (hostText, afterHost) := takeHost false rest
  let host ←
    if special then
      if hostText.isEmpty then .error .emptyHost else readHost hostText
    else readOpaqueHost hostText
  if hostText.isEmpty && (named || !afterHost.isEmpty) then .error .emptyHost
  else
    let port ← match afterHost with
      | ':' :: portText => readPort scheme portText
      | _ => .ok none
    .ok ⟨username, password, host, port⟩

/-! ## Path -/

/-- Whether a segment means the place itself. -/
def isSingleDot (s : String) : Bool := lower s == "." || lower s == "%2e"

/-- Whether a segment means the place above. -/
def isDoubleDot (s : String) : Bool :=
  ["..", ".%2e", "%2e.", "%2e%2e"].contains (lower s)

/-- Whether a segment is a drive, with a colon or a bar. -/
def isDrive (s : String) : Bool :=
  match s.toList with
  | [c, d] => isLetter c && (d == ':' || d == '|')
  | _ => false

/-- Drops the last segment; the drive of a file stays. -/
def shorten (scheme : String) (parts : List String) : List String :=
  match parts with
  | [p] => if scheme = "file" ∧ isDrive p then [p] else []
  | _ => parts.dropLast

/-- Puts a segment behind others. A segment with a meaning leaves an empty one behind if it is the
last. -/
def pushSegment (scheme : String) (parts : List String) (s : String) (last : Bool) : List String :=
  if isDoubleDot s then shorten scheme parts ++ (if last then [""] else [])
  else if isSingleDot s then parts ++ (if last then [""] else [])
  else if scheme = "file" ∧ parts = [] ∧ isDrive s then
    [String.ofList (s.toList.take 1 ++ [':'])]
  else parts ++ [s]

/-- Puts segments behind others. -/
def pushSegments (scheme : String) : (parts : List String) → List String → List String
  | parts, [] => parts
  | parts, [s] => pushSegment scheme parts s true
  | parts, s :: rest => pushSegments scheme (pushSegment scheme parts s false) rest

/-- The segments of a path, given without its first slash. A file has no empty segments in
front. -/
def readSegments (scheme : String) (cs : List Char) : List String :=
  let raw := (cs.splitOnP (isSlash (isSpecial scheme))).map fun s =>
    String.ofList (percentEncode inPathSet s)
  let parts := pushSegments scheme [] raw
  if scheme = "file" then
    match parts.dropWhile (· == "") with
    | [] => [""]
    | ps => ps
  else parts

/-- The path behind a host. An address with a well-known scheme always has one. -/
def readPath (scheme : String) (cs : List Char) : Path :=
  match cs with
  | [] => .segments (if isSpecial scheme then [""] else [])
  | c :: rest => .segments (readSegments scheme (if isSlash (isSpecial scheme) c then rest else cs))

/-! ## Addresses -/

/-- A text up to its query, the query and the fragment. -/
def splitTail (cs : List Char) : List Char × Option (List Char) × Option (List Char) :=
  let front := cs.takeWhile (· != '#')
  let fragment := match cs.dropWhile (· != '#') with
    | [] => none
    | _ :: f => some f
  let path := front.takeWhile (· != '?')
  let query := match front.dropWhile (· != '?') with
    | [] => none
    | _ :: q => some q
  (path, query, fragment)

/-- An address without name, host and port. -/
def bare (scheme : String) (host : Option Host) (path : Path) : Url :=
  ⟨scheme, "", "", host, none, path, none, none⟩

/-- Reads an address behind the slashes of its host. -/
def readWithAuthority [Idna] (scheme : String) (cs : List Char) : Except ParseError Url := do
  let special := isSpecial scheme
  let a ← readAuthority scheme (cs.takeWhile fun c => !endsAuthority special c)
  let path := readPath scheme (cs.dropWhile fun c => !endsAuthority special c)
  .ok ⟨scheme, a.username, a.password, some a.host, a.port, path, none, none⟩

/-- Reads the address of a file. A drive takes the place of the host. -/
def readFile [Idna] (cs : List Char) : Except ParseError Url :=
  match cs with
  | a :: b :: rest =>
    if isSlash true a && isSlash true b then
      let hostText := rest.takeWhile fun c => !isSlash true c
      let after := rest.dropWhile fun c => !isSlash true c
      if isDrive (String.ofList hostText) then
        .ok (bare "file" (some (.domain "")) (.segments (readSegments "file" rest)))
      else do
        let host ← if hostText.isEmpty then .ok (.domain "") else readHost hostText
        let host := if host = .domain "localhost" then .domain "" else host
        let path := readPath "file" after
        let host := match path with
          | .segments (p :: _) => if isDrive p then .domain "" else host
          | _ => host
        .ok (bare "file" (some host) path)
    else .ok (bare "file" (some (.domain "")) (readPath "file" cs))
  | _ => .ok (bare "file" (some (.domain "")) (readPath "file" cs))

/-- Reads the part of an address between its scheme and its query. -/
def readFront [Idna] (scheme : String) (cs : List Char) : Except ParseError Url :=
  if scheme = "file" then readFile cs
  else if isSpecial scheme then readWithAuthority scheme (cs.dropWhile (isSlash true))
  else
    match cs with
    | '/' :: '/' :: rest => readWithAuthority scheme rest
    | '/' :: rest => .ok (bare scheme none (.segments (readSegments scheme rest)))
    | _ => .ok (bare scheme none (.opaqueText (String.ofList (percentEncode isControl cs))))

/-- Reads an address. -/
def parse [Idna] (s : String) : Except ParseError Url :=
  match takeScheme? (clean s.toList) with
  | none => .error .relativeWithoutBase
  | some (scheme, rest) => do
    let (front, query, fragment) := splitTail rest
    let u ← readFront scheme front
    .ok { u with
      query := query.map fun q => String.ofList (percentEncode (inQuerySet (isSpecial scheme)) q)
      fragment := fragment.map fun f => String.ofList (percentEncode inFragmentSet f) }

end Interlock.Url

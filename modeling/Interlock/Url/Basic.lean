import Interlock.Url.Host

/-!
# Addresses

The parts of an absolute address and its text. An address with a host has a path of segments; one
without a host may have a path that is a single text instead.
-/

namespace Interlock

/-- The path of an address. -/
inductive Url.Path
  | opaqueText (s : String)
  | segments (parts : List String)
  deriving DecidableEq, Repr

/-- An absolute address. Name, password, segments, query and fragment are held as they are written,
percent-encoded. -/
structure Url where
  scheme : String
  username : String
  password : String
  host : Option Url.Host
  port : Option Nat
  path : Url.Path
  query : Option String
  fragment : Option String
  deriving DecidableEq, Repr

namespace Url

/-- The well-known schemes and their ports. A file has no port. -/
def specialSchemes : List (String × Option Nat) :=
  [("http", some 80), ("https", some 443), ("ws", some 80), ("wss", some 443), ("ftp", some 21),
    ("file", none)]

/-- Whether a scheme is well known. -/
def isSpecial (scheme : String) : Bool := specialSchemes.any (·.1 == scheme)

/-- The port that goes without saying. -/
def defaultPort? (scheme : String) : Option Nat :=
  (specialSchemes.find? (·.1 == scheme)).bind (·.2)

/-- A path as text. -/
def Path.text : Path → String
  | .opaqueText s => s
  | .segments parts => parts.foldl (fun acc s => acc ++ "/" ++ s) ""

/-- The name and the password, with the sign that ends them. -/
def userinfoText (u : Url) : String :=
  if u.username = "" ∧ u.password = "" then ""
  else u.username ++ (if u.password = "" then "" else ":" ++ u.password) ++ "@"

/-- The part before the path. Without a host, a path that starts with two slashes is kept apart from
the scheme by a segment that means nothing. -/
def authorityText (u : Url) : String :=
  match u.host with
  | some h =>
    "//" ++ u.userinfoText ++ h.text ++ ((u.port.map fun p => ":" ++ Text.ofNat p).getD "")
  | none =>
    match u.path with
    | .segments ("" :: _ :: _) => "/."
    | _ => ""

/-- An address as text. -/
def text (u : Url) : String :=
  u.scheme ++ ":" ++ u.authorityText ++ u.path.text ++
    ((u.query.map ("?" ++ ·)).getD "") ++ ((u.fragment.map ("#" ++ ·)).getD "")

end Url

end Interlock

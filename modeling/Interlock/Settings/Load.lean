import Interlock.Json.Reader
import Interlock.Settings.Basic
import Interlock.Toml.Reader

/-!
# Loading settings

The layers of settings, from the lowest up: what holds where nothing else is said, the file of
defaults, the file of the environment at hand, the variables of the environment, the variable for
the address alone, and the address that the command line gives. A missing file is an empty layer.

A path of settings stands for a file of any format, and a table is walked in no fixed order, so what
a path comes to is a parameter, `Reader`. `readLayer` is the part of it for TOML and JSON.
-/

namespace Interlock.Settings

open Text

/-! ## Files -/

/-- The formats that `readLayer` knows. -/
inductive Format
  | toml
  | json
  deriving DecidableEq, Repr, Inhabited

/-- The formats that `readLayer` knows, with the ends of the names of their files. -/
def formats : List (String × Format) := [("toml", .toml), ("json", .json)]

/-- A path in its shortest form: without empty parts and parts that stay where they are. -/
def plainPath (path : String) : String :=
  let parts := (path.toList.splitOn '/').filter fun p => !p.isEmpty && p != ['.']
  (if path.toList.head? = some '/' then "/" else "") ++ join "/" (parts.map String.ofList)

/-- The path of a file in a directory. -/
def inDirectory (dir name : String) : String :=
  plainPath (if name.toList.head? = some '/' then name else dir ++ "/" ++ name)

/-- A path split at the point before the end of its last name; a point at the start of the name
does not count. -/
def splitExtension (path : String) : String × String :=
  let cs := path.toList.reverse
  let name := cs.takeWhile (· != '/')
  let ext := name.takeWhile (· != '.')
  if name.length ≤ ext.length + 1 then (path, "")
  else (String.ofList (cs.drop (ext.length + 1)).reverse, String.ofList ext.reverse)

/-- The paths at which `readLayer` looks for a file, with the formats that they promise: the path
itself, and then the path with the end that belongs to a format. -/
def candidates (path : String) : List (String × Option Format) :=
  let (stem, ext) := splitExtension path
  (path, (formats.find? (·.1 == ext)).map (·.2)) ::
    formats.map fun f => (stem ++ "." ++ f.1, some f.2)

/-- The entries of a text in some format. -/
def readEntries? (format : Format) (path text : String) : Option (List (String × Tree)) :=
  match format with
  | .toml => (Toml.read? text).map (Tree.ofTomlEntries (some path))
  | .json =>
    match Json.read? text with
    | some (.object members) => some (Tree.ofJsonMembers (some path) members)
    | _ => none

/-- How a path is read: the entries of its file, in the order in which they are laid. The texts of all
files are given by their paths. -/
abbrev Reader := (String → Option String) → String → Except Error (List (String × Tree))

/-- Reads the first of the `candidates` that is there. -/
def readLayer : Reader := fun file? path =>
  let found := (candidates path).findSome? fun c => (file? c.1).map fun text => (c.1, c.2, text)
  match found with
  | none => .ok []
  | some (_, none, _) => .ok []
  | some (path, some format, text) =>
    match readEntries? format path text with
    | some entries => .ok entries
    | none => .error (.malformed path)

/-! ## Surroundings -/

/-- What settings are loaded from: the text of each file by its path, the variables, and the way in
which files are read. -/
structure Surroundings where
  file? : String → Option String
  vars : List (String × String)
  reader : Reader := readLayer

/-- The value of a variable. -/
def Surroundings.valueOf (x : Surroundings) (name : String) : Option String :=
  (x.vars.find? (·.1 == name)).map (·.2)

/-- The layer of a file. -/
def fileLayer (x : Surroundings) (path : String) : Except Error (List (String × Tree)) :=
  x.reader x.file? path

/-! ## Variables -/

/-- The start of the variables that hold settings. -/
def variableMark : String := "sentinel__"

/-- The variable that names the environment at hand. -/
def environmentVariable : String := "SENTINEL_ENV"

/-- The variable for the address alone. -/
def addressVariable : String := "SENTINEL_API_BASE"

/-- The environment at hand if nothing else is said. -/
def defaultEnvironment : String := "development"

/-- The origin of values that variables hold. -/
def variableOrigin : String := "the environment"

/-- A name with a point for each two underscores. -/
def pointed : List Char → List Char
  | '_' :: '_' :: cs => '.' :: pointed cs
  | c :: cs => c :: pointed cs
  | [] => []

/-- The value that a variable holds: the first of truth value, integer, float and text that it can
be read as. -/
def variableValue (s : String) : Scalar :=
  let word := inSmallLetters s
  if word = "true" then .bool true
  else if word = "false" then .bool false
  else
    match Number.readSignedWord? s, Number.readBinary64? s with
    | some i, _ => .integer i
    | none, some x => .float x
    | none, none => .text s

/-- The entry that a variable stands for, if it holds a setting. -/
def variableEntry? (v : String × String) : Option (String × Tree) :=
  let name := (inSmallLetters v.1).toList
  let mark := variableMark.toList
  if name.take mark.length = mark then
    some (String.ofList (pointed (name.drop mark.length)),
      .scalar (some variableOrigin) (variableValue v.2))
  else none

/-! ## Layers -/

/-- The tree with an address that goes before all others. -/
def withAddress (root : Tree) (address : Option String) : Tree :=
  match (address.map trim).filter (· ≠ "") with
  | none => root
  | some s => root.layOver [("api.base_url", .scalar none (.text s))]

/-- The file of defaults in a directory. -/
def defaultsPath (dir : String) : String := inDirectory dir "default.toml"

/-- The file of the environment at hand in a directory, without the end of its name. -/
def environmentPath (x : Surroundings) (dir : String) : String :=
  inDirectory dir ((x.valueOf environmentVariable).getD defaultEnvironment)

/-- The settings of a directory and its surroundings. -/
def load (x : Surroundings) (dir : String) : Except Error Settings := do
  let defaults ← fileLayer x (defaultsPath dir)
  let special ← fileLayer x (environmentPath x dir)
  let root := (defaultTree.layOver defaults).layOver special
  let root := root.layOver (x.vars.filterMap variableEntry?)
  ofTree (withAddress root (x.valueOf addressVariable))

/-- The settings with the address that the command line gives. -/
def loadWith (x : Surroundings) (dir : String) (baseUrl : Option String) :
    Except Error Settings :=
  (load x dir).map fun s =>
    match baseUrl with
    | some base => { s with baseUrl := trim base }
    | none => s

end Interlock.Settings

import Interlock.Json.Value
import Interlock.Text.Basic
import Interlock.Text.Case
import Interlock.Toml.Table

/-!
# Layers of settings

A layer is a tree of values that know where they come from. Layers are laid over one another key by
key: tables are joined, everything else is replaced, and a value on the way to a key gives way to a
table. Keys are compared without regard to case.
-/

namespace Interlock.Settings

/-- A single value. -/
inductive Scalar
  | null
  | bool (b : Bool)
  | integer (i : Int)
  | float (x : Binary64)
  | text (s : String)
  deriving DecidableEq, Repr, Inhabited

/-- A tree of values; each one names its origin, if it has one. -/
inductive Tree
  | scalar (origin : Option String) (v : Scalar)
  | list (origin : Option String) (items : List Tree)
  | table (origin : Option String) (entries : List (String × Tree))
  deriving Repr

namespace Tree

/-- A table that nobody wrote. -/
def empty : Tree := .table none []

instance : Inhabited Tree := ⟨empty⟩

/-! ## Trees of documents -/

mutual

/-- The tree of a TOML value. -/
def ofToml (origin : Option String) : Toml.Value → Tree
  | .bool b => .scalar origin (.bool b)
  | .integer i => .scalar origin (.integer i)
  | .float x => .scalar origin (.float x)
  | .text s => .scalar origin (.text s)
  | .array items => .list origin (ofTomlItems origin items)
  | .table _ entries => .table origin (ofTomlEntries origin entries)
  | .tables items => .list origin (ofTomlTables origin items).reverse

/-- The trees of the items of an array. -/
def ofTomlItems (origin : Option String) : List Toml.Value → List Tree
  | [] => []
  | v :: vs => ofToml origin v :: ofTomlItems origin vs

/-- The trees of tables. -/
def ofTomlTables (origin : Option String) : List (List (String × Toml.Value)) → List Tree
  | [] => []
  | es :: rest => .table origin (ofTomlEntries origin es) :: ofTomlTables origin rest

/-- The trees of the entries of a table. -/
def ofTomlEntries (origin : Option String) : List (String × Toml.Value) → List (String × Tree)
  | [] => []
  | (k, v) :: rest => (k, ofToml origin v) :: ofTomlEntries origin rest

end

/-- A number of a JSON document; an integer has 64 bits and a sign. -/
def ofNumber : Json.Number → Scalar
  | .whole i => if i < Int.pow 2 63 then .integer i else .float (.ofNat i.toNat)
  | .real x => .float x

mutual

/-- The tree of a JSON document. -/
def ofJson (origin : Option String) : Json → Tree
  | .null => .scalar origin .null
  | .bool b => .scalar origin (.bool b)
  | .number n => .scalar origin (ofNumber n)
  | .string s => .scalar origin (.text s)
  | .array items => .list origin (ofJsonItems origin items)
  | .object members => .table origin (ofJsonMembers origin members)

/-- The trees of the items of an array. -/
def ofJsonItems (origin : Option String) : List Json → List Tree
  | [] => []
  | j :: js => ofJson origin j :: ofJsonItems origin js

/-- The trees of the members of an object. -/
def ofJsonMembers (origin : Option String) : List (String × Json) → List (String × Tree)
  | [] => []
  | (k, j) :: rest => (k, ofJson origin j) :: ofJsonMembers origin rest

end

/-! ## Laying over -/

/-- The value of a key; only tables have any. -/
def get? (t : Tree) (k : String) : Option Tree :=
  match t with
  | .table _ entries => (entries.find? (·.1 == k)).map (·.2)
  | _ => none

/-- Gives a key a value; what is no table becomes one. -/
def put (t : Tree) (k : String) (v : Tree) : Tree :=
  match t with
  | .table origin entries =>
    if entries.any (·.1 == k) then
      .table origin (entries.map fun e => if e.1 == k then (k, v) else e)
    else .table origin (entries ++ [(k, v)])
  | _ => .table none [(k, v)]

mutual

/-- A value laid over what stands at its key. -/
def laidOver (below : Option Tree) : Tree → Tree
  | .table _ entries => layEntries (below.getD empty) entries
  | v => v

/-- Entries laid over a tree. -/
def layEntries (below : Tree) : List (String × Tree) → Tree
  | [] => below
  | (k, v) :: rest =>
    let k := Text.inSmallLetters k
    layEntries (below.put k (laidOver (below.get? k) v)) rest

end

/-! ## Keys of keys -/

/-- A value at the end of a path of keys, as the value of the first one. -/
def nested (path : List String) (v : Tree) : Tree :=
  path.foldr (fun k t => .table none [(k, t)]) v

/-- Whether a character may stand in a key that is part of a path. -/
def isPathChar (c : Char) : Bool :=
  Text.isLetter c || Text.isDigit c || c == '_' || c == '-' || c == ' '

/-- The entry that a key at the top of a layer stands for: with points in it, the key is a path. -/
def entryAt (k : String) (v : Tree) : String × Tree :=
  let ps := k.toList.splitOn '.'
  if ps.all fun p => !p.isEmpty && p.all isPathChar then
    match ps.map String.ofList with
    | first :: rest => (first, nested rest v)
    | [] => (k, v)
  else (k, v)

/-- A layer, given by the keys at its top, laid over a tree. -/
def layOver (below : Tree) (entries : List (String × Tree)) : Tree :=
  layEntries below (entries.map fun e => entryAt e.1 e.2)

end Tree

end Interlock.Settings

import Interlock.Number.Binary64

/-!
# Tables

A TOML document is a table that is put together line by line. A key may be given once only, and how
a table came about decides what may still be added to it: a table with a header of its own is not
given another one and takes no dotted keys from elsewhere, a table made by dotted keys takes more of
them, and an inline table is closed.
-/

namespace Interlock.Toml

/-- How a table came about. -/
inductive TableOrigin
  /-- By the header of a table inside it. -/
  | implied
  /-- By its own header, or as the document. -/
  | header
  /-- By a dotted key. -/
  | dotted
  /-- In braces. -/
  | inline
  deriving DecidableEq, Repr, Inhabited

/-- A value of a document. Dates and times are kept as text. -/
inductive Value
  | bool (b : Bool)
  | integer (i : Int)
  | float (x : Binary64)
  | text (s : String)
  | array (items : List Value)
  | table (origin : TableOrigin) (entries : List (String × Value))
  /-- The tables of a header in double brackets, the last one first. -/
  | tables (items : List (List (String × Value)))
  deriving Repr, Inhabited

/-- A table with the way it came about. -/
structure Table where
  origin : TableOrigin
  entries : List (String × Value)
  deriving Repr, Inhabited

/-- The path of keys to a value. -/
abbrev Path := List String

namespace Table

/-- The document before its first line. -/
def fresh : Table := ⟨.header, []⟩

/-- The value of a key. -/
def get? (t : Table) (k : String) : Option Value := (t.entries.find? (·.1 == k)).map (·.2)

/-- A table with the value of a key replaced, or added at the end. -/
def put (t : Table) (k : String) (v : Value) : Table :=
  if t.entries.any (·.1 == k) then
    { t with entries := t.entries.map fun e => if e.1 == k then (k, v) else e }
  else { t with entries := t.entries ++ [(k, v)] }

/-- Changes the table at the end of a path. Tables that are missing are made; of the tables of a
header in double brackets the last one is meant. A dotted key does not reach into a table that has
a header. -/
def update (dotted : Bool) (change : Table → Option Table) : Path → Table → Option Table
  | [], t => change t
  | k :: ks, t =>
    match t.get? k with
    | none =>
      (update dotted change ks ⟨if dotted then .dotted else .implied, []⟩).map fun sub =>
        t.put k (.table sub.origin sub.entries)
    | some (.table origin entries) =>
      if origin = .inline ∨ (dotted ∧ origin = .header) then none
      else (update dotted change ks ⟨origin, entries⟩).map fun sub =>
        t.put k (.table sub.origin sub.entries)
    | some (.tables (last :: before)) =>
      (update dotted change ks ⟨.header, last⟩).map fun sub =>
        t.put k (.tables (sub.entries :: before))
    | some _ => none

/-- Adds a key that must be new. A dotted key ends only in a table that dotted keys made. -/
def define (path : Path) (k : String) (v : Value) (t : Table) : Option Table :=
  t.update true (fun sub =>
    if (sub.origin == .dotted) == path.isEmpty || (sub.get? k).isSome then none
    else some (sub.put k v)) path

/-- Opens the table of a header. -/
def openTable (path : Path) (k : String) (t : Table) : Option Table :=
  t.update false (fun sub =>
    match sub.get? k with
    | none => some (sub.put k (.table .header []))
    | some (.table .implied entries) => some (sub.put k (.table .header entries))
    | some _ => none) path

/-- Opens one more table of a header in double brackets. -/
def openNext (path : Path) (k : String) (t : Table) : Option Table :=
  t.update false (fun sub =>
    match sub.get? k with
    | none => some (sub.put k (.tables [[]]))
    | some (.tables items) => some (sub.put k (.tables ([] :: items)))
    | some _ => none) path

/-- The inline table with the given keys and values, in order. -/
def inlineOf (pairs : List (Path × String × Value)) : Option Value :=
  let closed (t : Table) : Value := .table .inline t.entries
  (pairs.foldlM (fun (t : Table) p => t.define p.1 p.2.1 p.2.2) ⟨.inline, []⟩).map closed

end Table

end Interlock.Toml

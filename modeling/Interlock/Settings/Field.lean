import Interlock.Number.Reader
import Interlock.Settings.Error

/-!
# Fields of settings

The value of a field is taken from a tree by what the field is for, not by how the value is
written: a truth value may be a number or a word, a number may be written as a text, and every
single value may stand for a text. Numbers with a fraction are rounded, a half away from zero.
-/

namespace Interlock.Settings

open Text

/-- A tree at its place. -/
structure Place where
  key : String
  tree : Tree
  deriving Inhabited

namespace Place

/-- A value that does not fit. -/
def misfit {α : Type} (p : Place) (found : Found) (expected : Expected) : Except Error α :=
  let origin := match p.tree with
    | .scalar origin _ => origin
    | .list origin _ => origin
    | .table origin _ => origin
  .error (.misfit found expected p.key origin)

/-- The words for the truth values. -/
def truthWord? (s : String) : Option Bool :=
  if ["1", "true", "on", "yes"].contains s then some true
  else if ["0", "false", "off", "no"].contains s then some false
  else none

/-- A truth value. -/
def truth (p : Place) : Except Error Bool :=
  match p.tree with
  | .scalar _ (.bool b) => .ok b
  | .scalar _ (.integer i) => .ok (i != 0)
  | .scalar _ (.float x) => .ok (!x.isZero)
  | .scalar _ (.text s) =>
    let word := inSmallLetters s
    match truthWord? word with
    | some b => .ok b
    | none => p.misfit (.text word) .truth
  | .scalar _ .null => p.misfit .nothing .truth
  | .list _ _ => p.misfit .list .truth
  | .table _ _ => p.misfit .table .truth

/-- A number of 64 bits that is written as a text; the words for the truth values count too. -/
def countWord? (s : String) : Option Nat :=
  let word := inSmallLetters s
  if ["true", "on", "yes"].contains word then some 1
  else if ["false", "off", "no"].contains word then some 0
  else Number.readWord? s

/-- A number of 64 bits without a sign. -/
def count (p : Place) : Except Error Nat :=
  match p.tree with
  | .scalar _ (.bool b) => .ok (if b then 1 else 0)
  | .scalar _ (.integer i) => if i < 0 then p.misfit (.integer i) .unsigned else .ok i.toNat
  | .scalar _ (.float x) => .ok (x.roundClamped 0 (Number.wordBound - 1)).toNat
  | .scalar _ (.text s) =>
    match countWord? s with
    | some n => .ok n
    | none => p.misfit (.text s) .integer
  | .scalar _ .null => p.misfit .nothing .integer
  | .list _ _ => p.misfit .list .integer
  | .table _ _ => p.misfit .table .integer

/-- A text. -/
def text (p : Place) : Except Error String :=
  match p.tree with
  | .scalar _ (.bool b) => .ok (if b then "true" else "false")
  | .scalar _ (.integer i) => .ok (ofInt i)
  | .scalar _ (.float x) => .ok (floatFormat.render x)
  | .scalar _ (.text s) => .ok s
  | .scalar _ .null => p.misfit .nothing .text
  | .list _ _ => p.misfit .list .text
  | .table _ _ => p.misfit .table .text

end Place

/-- The fields of a section. -/
def Section.fields : Section → List String
  | .api => ["base_url", "request_timeout_ms"]
  | .polling => ["interval_ms"]
  | .logging => ["level", "json"]

/-- The place of a field of a section. A section is a table, or a list of its fields in order. -/
def fieldPlace? (s : Section) (tree : Tree) (index : Nat) (name : String) :
    Except Error (Option Place) :=
  match tree with
  | .scalar _ v => .error (.noSection v s)
  | .list _ items =>
    .ok ((items[index]?).map fun t => ⟨s.key ++ "[" ++ ofNat index ++ "]", t⟩)
  | .table _ _ => .ok ((tree.get? name).map fun t => ⟨s.key ++ "." ++ name, t⟩)

/-- The value of a field, or `absent` if the section has none. -/
def fieldOr {α : Type} (s : Section) (root : Tree) (name : String) (read : Place → Except Error α)
    (absent : Tree → Except Error α) : Except Error α :=
  match root.get? s.key with
  | none => absent .empty
  | some tree => do
    match ← fieldPlace? s tree (s.fields.idxOf name) name with
    | some p => read p
    | none => absent tree

end Interlock.Settings

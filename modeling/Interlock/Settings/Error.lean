import Interlock.Number.Format
import Interlock.Settings.Tree
import Interlock.Text.Quoted

/-!
# Faults of settings

Why settings cannot be read: a file does not follow its format, a section is no section, or a value
does not fit its field. A value that does not fit is named with its key and its origin.
-/

namespace Interlock.Settings

open Text

/-- The layout of a float that becomes a text. -/
def floatFormat : Number.FloatFormat := ⟨none, false, "inf", "NaN"⟩

/-- The layout of a float in a message. -/
def messageFloatFormat : Number.FloatFormat := ⟨none, true, "inf", "NaN"⟩

/-- What stands where something else is asked for. -/
inductive Found
  | text (s : String)
  | integer (i : Int)
  | nothing
  | list
  | table
  deriving DecidableEq, Repr, Inhabited

/-- The wording of what was found. -/
def Found.message : Found → String
  | .text s => "string " ++ quoted s
  | .integer i => "64-bit integer `" ++ ofInt i ++ "`"
  | .nothing => "unit value"
  | .list => "sequence"
  | .table => "map"

/-- What is asked for. -/
inductive Expected
  | truth
  | integer
  | unsigned
  | text
  deriving DecidableEq, Repr, Inhabited

/-- The wording of what is asked for. -/
def Expected.message : Expected → String
  | .truth => "a boolean"
  | .integer => "an integer"
  | .unsigned => "an unsigned 64 bit or less integer"
  | .text => "a string"

/-- The sections of the settings. -/
inductive Section
  | api
  | polling
  | logging
  deriving DecidableEq, Repr, Inhabited

/-- The key of a section. -/
def Section.key : Section → String
  | .api => "api"
  | .polling => "polling"
  | .logging => "logging"

/-- The name of a section in messages. -/
def Section.title : Section → String
  | .api => "ApiConfig"
  | .polling => "PollingConfig"
  | .logging => "LoggingConfig"

/-- The wording of a single value that stands where a section should. -/
def Scalar.message : Scalar → String
  | .null => "unit value"
  | .bool b => "boolean `" ++ (if b then "true" else "false") ++ "`"
  | .integer i => "integer `" ++ ofInt i ++ "`"
  | .float x => "floating point `" ++ messageFloatFormat.render x ++ "`"
  | .text s => "string " ++ quoted s

/-- Why settings cannot be read. -/
inductive Error
  /-- A file does not follow its format. -/
  | malformed (path : String)
  /-- A single value stands where a section should. -/
  | noSection (found : Scalar) (s : Section)
  /-- A section that is given as a list has no item for a field that is needed. -/
  | shortSection (s : Section) (fields : Nat)
  /-- A section lacks a field that is needed. -/
  | missing (field : String)
  /-- A value does not fit its field. -/
  | misfit (found : Found) (expected : Expected) (key : String) (origin : Option String)
  deriving DecidableEq, Repr

/-- The wording of a fault. -/
def Error.message : Error → String
  | .malformed path => "the format is not followed in " ++ path
  | .noSection found s => "invalid type: " ++ found.message ++ ", expected struct " ++ s.title
  | .shortSection s fields =>
    "invalid length 0, expected struct " ++ s.title ++ " with " ++ ofNat fields ++
      (if fields = 1 then " element" else " elements")
  | .missing field => "missing field `" ++ field ++ "`"
  | .misfit found expected key origin =>
    "invalid type: " ++ found.message ++ ", expected " ++ expected.message ++ " for key `" ++ key ++
      "`" ++ ((origin.map (" in " ++ ·)).getD "")

end Interlock.Settings

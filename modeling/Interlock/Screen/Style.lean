import Interlock.Safety.Outcome
import Interlock.Safety.Verdict

/-!
# Colours

The colours of the screen, by what they stand for. Green, yellow and red are kept for the state of
things; frames and titles are cyan.
-/

namespace Interlock.Screen

/-- The colours that the screen uses. -/
inductive Color
  /-- The terminal's own. -/
  | own
  | black
  | red
  | green
  | yellow
  | cyan
  | darkGray
  | white
  deriving DecidableEq, Repr, Inhabited

/-- How a symbol is painted. -/
structure Style where
  fg : Color := .own
  bg : Color := .own
  bold : Bool := false
  deriving DecidableEq, Repr, Inhabited

namespace Style

/-- The terminal's own colours. -/
def plain : Style := {}

/-- Frames. -/
def frame : Style := { fg := .cyan }

/-- Titles. -/
def title : Style := { fg := .cyan, bold := true }

/-- What asks for attention. -/
def accent : Style := { fg := .yellow }

/-- What stands back. -/
def dim : Style := { fg := .darkGray }

/-- Ordinary text. -/
def text : Style := { fg := .white }

/-- The bar of the safety banner. -/
def banner (level : BannerLevel) : Style where
  fg := .black
  bg := match level with
    | .ok => .green
    | .degraded => .yellow
    | .halted => .red
  bold := true

/-- Green for what is in order, red for what is not. -/
def health (healthy : Bool) : Style := { fg := if healthy then .green else .red }

/-- An outcome. -/
def outcome (status : ActionStatus) : Style where
  fg := match status with
    | .pending => .yellow
    | .success => .green
    | .blocked => .yellow
    | .failed => .red
    | .error => .red
  bold := true

end Style

end Interlock.Screen

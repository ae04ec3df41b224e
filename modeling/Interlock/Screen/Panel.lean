import Interlock.Screen.Line

/-!
# Panels

A panel is a frame with a title on its upper edge and rows inside. Where a panel is too small for
a whole frame, the edges meet: corners come before edges, and the upper left corner comes first.
-/

namespace Interlock.Screen

/-- A part of the screen. -/
structure Area where
  x : Nat
  y : Nat
  w : Nat
  h : Nat
  deriving DecidableEq, Repr, Inhabited

/-- A share of a size in percent, rounded half up. -/
def share (size percent : Nat) : Nat := (size * percent + 50) / 100

/-- The middle part of a screen of `w` by `h` cells, of the given shares. -/
def Area.centred (w h wide high : Nat) : Area :=
  let left := share w ((100 - wide) / 2)
  let top := share h ((100 - high) / 2)
  ⟨left, top, share w ((100 - wide) / 2 + wide) - left, share h ((100 - high) / 2 + high) - top⟩

namespace Panel

/-- The symbol of the frame at a place; blank inside. -/
def edge (w h x y : Nat) : Char :=
  if x = 0 ∧ y = 0 then '┌'
  else if x = 0 ∧ y + 1 = h then '└'
  else if x + 1 = w ∧ y = 0 then '┐'
  else if x + 1 = w ∧ y + 1 = h then '┘'
  else if y + 1 = h then '─'
  else if x + 1 = w then '│'
  else if y = 0 then '─'
  else if x = 0 then '│'
  else ' '

/-- The cell of the frame at a place. -/
def edgeCell (style : Style) (w h x y : Nat) : Cell :=
  let c := edge w h x y
  if c = ' ' then .blank else ⟨[c], style⟩

/-- The frame. -/
def frame (style : Style) (w h : Nat) : Grid :=
  (List.range h).map fun y => (List.range w).map fun x => edgeCell style w h x y

/-- A panel of a size. -/
def draw (style : Style) (title : Line) (w h : Nat) (rows : List Row) : Grid :=
  let titleRow := (cutLines (w - 2) [title])
  let inside : Grid := Grid.fit (w - 2) (h - 2) rows
  ((frame style w h).cover 1 0 titleRow).cover 1 1 inside

end Panel

end Interlock.Screen

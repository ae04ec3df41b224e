import Interlock.Screen.Style
import Interlock.Text.Width

/-!
# Grids of cells

A picture is a list of rows of cells. Pictures are put beside and over one another; what is laid
over a picture hides it and never makes it larger. A symbol of two columns hides the cell after it
when the grid is shown.
-/

namespace Interlock.Screen

/-- A place of the screen: a cluster and its style. -/
structure Cell where
  symbol : List Char
  style : Style
  deriving DecidableEq, Repr

namespace Cell

/-- The empty cell. -/
def blank : Cell := ⟨[' '], .plain⟩

instance : Inhabited Cell := ⟨blank⟩

/-- The columns of the cell's symbol. -/
def width (c : Cell) : Nat := Text.clusterWidth c.symbol

end Cell

/-- A row of cells. -/
abbrev Row := List Cell

/-- A rectangle of cells, from the top down. -/
abbrev Grid := List Row

namespace Row

/-- An empty row. -/
def empty (w : Nat) : Row := List.replicate w .blank

/-- A row brought to `w` cells. -/
def fit (w : Nat) (row : Row) : Row := row.take w ++ empty (w - row.length)

/-- The cells of symbols that follow one another; those without a column leave no cell. -/
def ofSymbols (symbols : List Cell) : Row :=
  symbols.flatMap fun c => if c.width = 0 then [] else c :: empty (c.width - 1)

/-- A row with another one laid over it from column `x` on. -/
def cover (row : Row) (x : Nat) (top : Row) : Row :=
  row.take x ++ (top ++ row.drop (x + top.length)).take (row.length - x)

/-- A row as it is seen: the cell after a wide symbol is blank. -/
def shown (row : Row) : Row :=
  List.zipWith (fun before c => if 1 < before.width then .blank else c) (.blank :: row) row

@[simp] theorem length_fit (w : Nat) (row : Row) : (row.fit w).length = w := by
  simp only [fit, empty, List.length_append, List.length_take, List.length_replicate]
  omega

@[simp] theorem length_cover (row : Row) (x : Nat) (top : Row) :
    (row.cover x top).length = row.length := by
  simp only [cover, List.length_append, List.length_take, List.length_drop]
  omega

@[simp] theorem length_shown (row : Row) : row.shown.length = row.length := by
  simp [shown]

end Row

namespace Grid

/-- An empty grid. -/
def empty (w h : Nat) : Grid := List.replicate h (Row.empty w)

/-- Rows brought to a size. -/
def fit (w h : Nat) (rows : Grid) : Grid :=
  (rows.take h).map (Row.fit w) ++ empty w (h - rows.length)

/-- Two grids of one height side by side. -/
def beside (left right : Grid) : Grid := List.zipWith (· ++ ·) left right

/-- A grid with another one laid over it from column `x` and row `y` on. -/
def cover (grid : Grid) (x y : Nat) (top : Grid) : Grid :=
  grid.take y ++ List.zipWith (fun row part => row.cover x part) (grid.drop y) top ++
    grid.drop (y + top.length)

/-- A grid as it is seen. -/
def shown (grid : Grid) : Grid := grid.map Row.shown

@[simp] theorem length_fit (w h : Nat) (rows : Grid) : (rows.fit w h).length = h := by
  simp only [fit, empty, List.length_append, List.length_map, List.length_take,
    List.length_replicate]
  omega

@[simp] theorem length_cover (grid : Grid) (x y : Nat) (top : Grid) :
    (grid.cover x y top).length = grid.length := by
  simp only [cover, List.length_append, List.length_take, List.length_zipWith, List.length_drop]
  omega

end Grid

end Interlock.Screen

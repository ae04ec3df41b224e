import Interlock.Screen.Grid
import Interlock.Text.Basic

/-!
# Lines of styled text

A line is a list of pieces, each of one style. A line that is too long for its place is cut, or it
is wrapped between words; a word that is longer than a whole line is broken. Blanks at which a line
is wrapped are dropped as far as the old line had room for them.
-/

namespace Interlock.Screen

/-- A text of one style. -/
structure Piece where
  text : String
  style : Style
  deriving DecidableEq, Repr, Inhabited

/-- A line of styled text. -/
abbrev Line := List Piece

namespace Line

/-- The symbols of a line; a line feed has none. -/
def symbols (l : Line) : List Cell :=
  l.flatMap fun p =>
    ((Text.clusters p.text).filter fun cluster => cluster != ['\n']).map fun cluster =>
      ⟨cluster, p.style⟩

end Line

/-! ## Cutting -/

/-- The symbols that have room in `w` columns, of which `used` are taken; a symbol that has no room
even on an empty line is passed over. -/
def cutSymbols (w used : Nat) : List Cell → List Cell
  | [] => []
  | c :: cs =>
    if w < c.width then cutSymbols w used cs
    else if w < used + c.width then []
    else c :: cutSymbols w (used + c.width) cs

/-- Lines cut to a width, as rows. -/
def cutLines (w : Nat) (ls : List Line) : List Row :=
  ls.map fun l => Row.ofSymbols (cutSymbols w 0 l.symbols)

/-! ## Wrapping -/

/-- A symbol with its columns. -/
structure Glyph where
  cell : Cell
  width : Nat
  deriving Repr, Inhabited

namespace Glyph

/-- The glyph of a symbol. -/
def ofCell (c : Cell) : Glyph := ⟨c, c.width⟩

/-- Whether a line may be wrapped at this symbol; the no-break space keeps words together, and the
zero-width space parts them. -/
def isBlank (g : Glyph) : Bool :=
  g.cell.symbol == ['\u200B'] || (g.cell.symbol.all Text.isBlank && g.cell.symbol != ['\u00A0'])

end Glyph

/-- The columns of glyphs. -/
def columns (gs : List Glyph) : Nat := gs.foldr (fun g n => g.width + n) 0

/-- Glyphs without those at the start that fit into `room` columns. -/
def dropFitting (room : Nat) : List Glyph → List Glyph
  | [] => []
  | g :: gs => if room < g.width then g :: gs else dropFitting (room - g.width) gs

/-- A line while it is wrapped. -/
structure Wrapping where
  /-- The lines that are complete, the last one first. -/
  complete : List (List Glyph)
  /-- What stands on the line at hand. -/
  line : List Glyph
  /-- The blanks after it. -/
  blanks : List Glyph
  /-- The word after the blanks. -/
  word : List Glyph
  /-- The last glyph was part of a word. -/
  inWord : Bool

namespace Wrapping

/-- Nothing wrapped yet. -/
def fresh : Wrapping := ⟨[], [], [], [], false⟩

/-- Puts the blanks and the word on the line. -/
def place (x : Wrapping) : Wrapping :=
  { x with line := x.line ++ x.blanks ++ x.word, blanks := [], word := [] }

/-- Completes the line; the blanks for which it had room go. -/
def wrapAt (w : Nat) (x : Wrapping) : Wrapping :=
  { x with
    complete := x.line :: x.complete
    line := []
    blanks := dropFitting (w - columns x.line) x.blanks }

/-- Adds a glyph to the blanks or to the word. -/
def add (g : Glyph) (x : Wrapping) : Wrapping :=
  if g.isBlank then { x with blanks := x.blanks ++ [g], inWord := false }
  else { x with word := x.word ++ [g], inWord := true }

/-- Whether the word is at its end, or is too long for a line of its own. -/
def wordEnds (w : Nat) (g : Glyph) (x : Wrapping) : Bool :=
  (x.inWord && g.isBlank) ||
    (x.line.isEmpty && w < columns x.word + columns x.blanks + g.width)

/-- Whether the line has no room for more. -/
def isFull (w : Nat) (g : Glyph) (x : Wrapping) : Bool :=
  w ≤ columns x.line ||
    (0 < g.width && w ≤ columns x.line + columns x.blanks + columns x.word)

/-- One glyph more. -/
def step (w : Nat) (x : Wrapping) (g : Glyph) : Wrapping :=
  if w < g.width then x
  else
    let x := if x.wordEnds w g then x.place else x
    if x.isFull w g then
      let x := x.wrapAt w
      if g.isBlank && x.blanks.isEmpty then x else x.add g
    else x.add g

/-- The lines at the end; there is at least one. -/
def finish (x : Wrapping) : List (List Glyph) :=
  let complete :=
    if x.line.isEmpty && x.word.isEmpty && !x.blanks.isEmpty then [] :: x.complete else x.complete
  let last := x.place.line
  let complete := if last.isEmpty then complete else last :: complete
  if complete.isEmpty then [[]] else complete.reverse

end Wrapping

/-- A line wrapped to a width. -/
def wrapSymbols (w : Nat) (cells : List Cell) : List (List Glyph) :=
  ((cells.map Glyph.ofCell).foldl (Wrapping.step w) .fresh).finish

/-- Lines wrapped to a width, as rows. -/
def wrapLines (w : Nat) (ls : List Line) : List Row :=
  if w = 0 then []
  else ls.flatMap fun l =>
    (wrapSymbols w l.symbols).map fun gs => Row.ofSymbols (gs.map Glyph.cell)

end Interlock.Screen

import CronFire.Decimal.Rounding
import CronFire.Terminal.Printed
/-!
# Tables

A table has a title, a row of headings and further rows, between box lines that are heavy
around the headings.  A column is as wide as its widest cell and one blank on each side.  If the
table is wider than the terminal, its widest columns are made narrower, down to the width of the
next one and so on, and cells that do not fit are wrapped.  The title stands centred above.

* `columnWidths`: how wide the columns are.
* `render`: the lines of the table.
-/
namespace CronFire.Terminal

open Text

/-- A table of texts, each on one line. -/
structure Table where
  title : List Char
  /-- The columns, each with its heading. -/
  columns : List (List Char × List (List Char))
  deriving DecidableEq, Repr

namespace Table

/-! ## Widths -/

def total : List Nat → Nat
  | [] => 0
  | width :: widths => width + total widths

/-- Takes `sum` off some widths, which come with the most that each may lose, in equal shares.
There are `count` of them that may lose something. -/
def takeShares (sum count : Nat) : List (Nat × Nat) → List Nat
  | [] => []
  | (width, limit) :: rest =>
    if limit = 0 then width :: takeShares sum count rest
    else
      let share := min limit (divideEven sum count)
      (width - share) :: takeShares (sum - share) (count - 1) rest

/-- Takes `excess` off some widths, in equal shares. -/
def shrink (excess : Nat) (widths : List (Nat × Nat)) : List Nat :=
  takeShares excess (widths.countP (0 < ·.2)) widths

/-- Makes the widest columns narrower until all fit into `room`; `fuel` bounds the number of
times that is done. -/
def narrow (room : Nat) : (fuel : Nat) → List Nat → List Nat
  | 0, widths => widths
  | fuel + 1, widths =>
    let excess := total widths - room
    let widest := widths.max?.getD 0
    let second := (widths.filter (· ≠ widest)).max?.getD 0
    if excess = 0 || widest = 0 then widths
    else
      let limit := min excess (widest - second)
      narrow room fuel
        (shrink excess (widths.map fun w => (w, if w = widest then limit else 0)))

/-- The blanks at the two sides of a cell. -/
def sides : Nat := 2

def fit (room : Nat) (column : List Char × List (List Char)) : Nat :=
  if room ≤ sides then room
  else min room (((column.1 :: column.2).map cells).max?.getD 0 + sides)

/-- The widths of the columns of a table that has `room` for them. -/
def columnWidths (room : Nat) (t : Table) : List Nat :=
  let wanted := t.columns.map fun c => max 1 (fit room c)
  if total wanted ≤ room then wanted
  else
    let narrowed := narrow room (total wanted) wanted
    let shrunk :=
      if total narrowed ≤ room then narrowed
      else shrink (total narrowed - room) (narrowed.map fun w => (w, w))
    List.zipWith fit shrunk t.columns

/-! ## Lines -/

/-- A line of a cell on exactly `width` cells; of a longer one an ellipsis shows the end. -/
def cellLine (width : Nat) (line : List Char) : List Char :=
  let line := if cells line ≤ width then line else crop (width - 1) line ++ ['…']
  line ++ padding width line

def cellLines (width : Nat) (cell : List Char) : List (List Char) :=
  if width ≤ sides then []
  else
    (wrap .cut (width - sides) cell).map fun line => ' ' :: cellLine (width - sides) line ++ [' ']

/-- A horizontal line of the box: what it begins with, is made of, has between the columns and
ends with. -/
structure Rule where
  left : Char
  along : Char
  between : Char
  right : Char
  deriving DecidableEq, Repr

/-- A line of the box through columns of some widths. -/
def Rule.line (r : Rule) (widths : List Nat) : List Char :=
  r.left :: [r.between].intercalate (widths.map fun w => List.replicate w r.along) ++ [r.right]

def top : Rule := ⟨'┏', '━', '┳', '┓'⟩

def middle : Rule := ⟨'┡', '━', '╇', '┩'⟩

def bottom : Rule := ⟨'└', '─', '┴', '┘'⟩

/-- The lines of a row, with a bar around and between its cells. -/
def rowLines (bar : Char) (widths : List Nat) (row : List (List Char)) : List (List Char) :=
  let blocks := List.zipWith (fun w cell => (w, cellLines w cell)) widths row
  let height := (blocks.map fun b => b.2.length).max?.getD 0
  (List.range (max 1 height)).map fun i =>
    bar :: [bar].intercalate (blocks.map fun b => b.2.getD i (List.replicate b.1 ' ')) ++ [bar]

def rows (t : Table) : List (List (List Char)) :=
  let height := (t.columns.map fun c => c.2.length).max?.getD 0
  (List.range height).map fun i => t.columns.map fun c => c.2.getD i []

/-- A line of the title in the middle of `width` cells. -/
def centred (width : Nat) (line : List Char) : List Char :=
  let line := crop width (trimEnd line)
  let line := List.replicate ((width - cells line) / 2) ' ' ++ line
  line ++ padding width line

def titleLines (width : Nat) (title : List Char) : List (List Char) :=
  (pieces '\n' (title.filter (!isDropped ·))).flatMap fun line =>
    (wrap .fold width line).map (centred width)

def render (columns : Nat) (t : Table) : List (List Char) :=
  let frame := t.columns.length + 1
  let widths := t.columnWidths (columns - frame)
  (titleLines (total widths + frame) t.title ++
    top.line widths :: rowLines '┃' widths (t.columns.map Prod.fst) ++
    middle.line widths :: t.rows.flatMap (rowLines '│' widths) ++
    [bottom.line widths]).map (crop columns)

end Table

end CronFire.Terminal

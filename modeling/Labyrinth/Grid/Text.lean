import Labyrinth.Grid.Basic

/-!
# Drawn grids

A grid is drawn row by row, `#` for a wall and `.` for floor.
-/

namespace Labyrinth

namespace Tile

def char : Tile → Char
  | .wall => '#'
  | .floor => '.'

def ofChar? : Char → Option Tile
  | '#' => some .wall
  | '.' => some .floor
  | _ => none

@[simp] theorem ofChar?_char (t : Tile) : ofChar? t.char = some t := by cases t <;> rfl

end Tile

namespace Grid

/-- The tiles of a drawn row of the given length. -/
def rowOfText? (size : Nat) (row : String) : Option (List Tile) :=
  if row.length = size then row.toList.mapM Tile.ofChar? else none

/-- Reads drawn rows. The rows have to form a square. -/
def ofRows? (rows : List String) : Option Grid := do
  let tiles ← rows.mapM (rowOfText? rows.length)
  return ⟨rows.length, tiles.flatten.toArray⟩

/-- A row as it is drawn. A tile that is not stored is drawn as a wall. -/
def rowText (g : Grid) (z : Nat) : String :=
  String.ofList ((List.range g.size).map fun x => (g.tiles.getD (z * g.size + x) .wall).char)

/-- The rows from north to south. -/
def rows (g : Grid) : List String := (List.range g.size).map g.rowText

/-- The rows as lines, each with its end. -/
def text (g : Grid) : String := String.join (g.rows.map (· ++ "\n"))

end Grid

end Labyrinth

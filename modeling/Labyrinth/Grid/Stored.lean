import Labyrinth.Grid.Text

/-!
# Stored tiles

A grid that was read from JSON may store fewer tiles than its square has cells. It goes wrong to look
at a cell whose tile is missing. A cell outside the square is not looked up at all.
-/

namespace Labyrinth

/-- A tile that is looked up behind the last one stored. -/
structure MissingTile where
  index : Nat
  stored : Nat
deriving DecidableEq

namespace Grid

/-- The tile at an index, or what is missing there. -/
def tile (g : Grid) (i : Nat) : Except MissingTile Tile :=
  match g.tiles[i]? with
  | some t => .ok t
  | none => .error ⟨i, g.tiles.size⟩

/-- The tile of a cell, `none` outside the square. -/
def look (g : Grid) (c : Cell) : Except MissingTile (Option Tile) :=
  if g.contains c then some <$> g.tile (g.index c) else .ok none

def looksOpen (g : Grid) (c : Cell) : Except MissingTile Bool :=
  (fun t => decide (t = some .floor)) <$> g.look c

/-- The open cells beside a cell. -/
def lookAround (g : Grid) (c : Cell) : Except MissingTile (List Cell) :=
  c.neighbors.filterM g.looksOpen

def drawRow (g : Grid) (z : Nat) : Except MissingTile String := do
  let tiles ← (List.range g.size).mapM fun x => g.tile (z * g.size + x)
  return String.ofList (tiles.map Tile.char)

/-- The text of a grid all of whose tiles are stored. -/
def draw (g : Grid) : Except MissingTile String := do
  let rows ← (List.range g.size).mapM g.drawRow
  return String.join (rows.map (· ++ "\n"))

end Grid

end Labyrinth

import Labyrinth.Cell

/-!
# Grids

A grid is a square of walls and floor, stored row by row. Everything outside the square reads as
wall. `Grid.WellFormed` says that there is one tile for each cell of the square.
-/

namespace Labyrinth

/-- What is at a cell. -/
inductive Tile where
  | wall
  | floor
deriving DecidableEq, Inhabited

/-- A square of tiles. Nothing here says that they are all there, see `WellFormed`. -/
structure Grid where
  size : Nat
  tiles : Array Tile
deriving DecidableEq, Inhabited

namespace Grid

/-- One tile for each cell of the square. -/
def WellFormed (g : Grid) : Prop := g.tiles.size = g.size * g.size

instance (g : Grid) : Decidable g.WellFormed := inferInstanceAs (Decidable (_ = _))

def filled (size : Nat) : Grid := ⟨size, Array.replicate (size * size) .wall⟩

/-- The cell lies in the square. The size is not taken as a coordinate here. -/
def contains (g : Grid) (c : Cell) : Bool :=
  decide (0 ≤ c.x) && decide (0 ≤ c.z) && decide (c.x < g.size) && decide (c.z < g.size)

/-- The cell lies in the first or last row or column, by coordinates of 32 bits. -/
def onBorder (g : Grid) (c : Cell) : Bool :=
  let last := coordinate g.size - 1
  decide (c.x = 0) || decide (c.z = 0) || decide (c.x = last) || decide (c.z = last)

/-- Where the tile of a cell is stored. -/
def index (g : Grid) (c : Cell) : Nat := c.z.toNat * g.size + c.x.toNat

/-- The tile of a cell, if the cell is in the square and its tile is stored. -/
def get? (g : Grid) (c : Cell) : Option Tile :=
  if g.contains c then g.tiles[g.index c]? else none

/-- Cells outside the square are not open. -/
def isOpen (g : Grid) (c : Cell) : Bool := decide (g.get? c = some .floor)

/-- There is a wall at the cell. Outside the square there is none. -/
def isWall (g : Grid) (c : Cell) : Bool := decide (g.get? c = some .wall)

/-- Turns a cell into floor. -/
def dig (g : Grid) (c : Cell) : Grid :=
  { g with tiles := g.tiles.setIfInBounds (g.index c) .floor }

theorem wellFormed_filled (n : Nat) : (filled n).WellFormed := Array.size_replicate

theorem WellFormed.dig {g : Grid} (h : g.WellFormed) (c : Cell) : (g.dig c).WellFormed := by
  simpa only [WellFormed, Grid.dig, Array.size_setIfInBounds] using h

theorem WellFormed.index_lt {g : Grid} (h : g.WellFormed) {c : Cell} (hc : g.contains c) :
    g.index c < g.tiles.size := by
  simp only [contains, Bool.and_eq_true, decide_eq_true_eq] at hc
  obtain ⟨⟨⟨hx, hz⟩, hxs⟩, hzs⟩ := hc
  have hx' : c.x.toNat < g.size := by omega
  have hz' : c.z.toNat + 1 ≤ g.size := by omega
  have hm := Nat.mul_le_mul_right g.size hz'
  rw [Nat.add_mul, Nat.one_mul] at hm
  rw [h, index]
  omega

/-! ## Looking at the floor -/

/-- The coordinates of the square. -/
def span (g : Grid) : List Int := (List.range (coordinate g.size).toNat).map Int.ofNat

/-- The cells of the square, row by row. -/
def cells (g : Grid) : List Cell := g.span.flatMap fun z => g.span.map fun x => ⟨x, z⟩

def openCells (g : Grid) : List Cell := g.cells.filter g.isOpen

/-- How many tiles are floor. -/
def openCount (g : Grid) : Nat := g.tiles.count .floor

def openNeighbors (g : Grid) (c : Cell) : List Cell := c.neighbors.filter g.isOpen

theorem mem_openNeighbors {g : Grid} {c n : Cell} :
    n ∈ g.openNeighbors c ↔ c.Adjacent n ∧ g.isOpen n := by
  rw [openNeighbors, List.mem_filter, Cell.mem_neighbors]

/-- The open cells to the right of an open cell and below it. -/
def openAhead (g : Grid) (c : Cell) : List Cell := [c.offset 1 0, c.offset 0 1].filter g.isOpen

/-- How many pairs of open cells are adjacent. Each is found from its first cell. -/
def openAdjacencyCount (g : Grid) : Nat := (g.openCells.flatMap g.openAhead).length

end Grid

end Labyrinth

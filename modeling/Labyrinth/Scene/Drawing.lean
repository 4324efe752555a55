import Labyrinth.Grid.Basic

/-!
# Drawing a maze

A scene is drawn stroke by stroke, and each stroke overwrites what was there before. First comes the
floor with air above it, then the walls outside the clearings around start and end, then the two
clearings with their pillars and markers, and last the walls that close the clearings at the edge.
`blockAt` says what stands at a place when all strokes have been drawn.
-/

namespace Labyrinth

inductive Block where
  | air
  | sandstone
  | stonebrick
  | grass
  | emerald
deriving DecidableEq, Inhabited

def Block.name : Block → String
  | .air => "air"
  | .sandstone => "sandstone"
  | .stonebrick => "stonebrick"
  | .grass => "grass"
  | .emerald => "emerald_block"

/-- A place in the world. `y` grows upwards. -/
structure Place where
  x : Int
  y : Int
  z : Int
deriving DecidableEq

namespace Drawing

/-- Draws one block, or a box of them between two corners. -/
inductive Stroke where
  | block (place : Place) (block : Block)
  | cuboid (first last : Place) (block : Block)
deriving DecidableEq

namespace Stroke

/-- The number lies between the two ends, in whichever order they come. -/
def between (v first last : Int) : Bool :=
  decide (min first last ≤ v) && decide (v ≤ max first last)

def covers (p : Place) : Stroke → Bool
  | .block q _ => decide (p = q)
  | .cuboid q r _ => between p.x q.x r.x && between p.y q.y r.y && between p.z q.z r.z

def paint : Stroke → Block
  | .block _ b => b
  | .cuboid _ _ b => b

end Stroke

/-- What stands at a place after some strokes. The last one that covers it decides. -/
def blockAt (strokes : List Stroke) (p : Place) : Option Block :=
  (strokes.reverse.find? (·.covers p)).map Stroke.paint

end Drawing

/-- A maze with the two cells where roles spawn. -/
structure Drawing where
  grid : Grid
  start : Cell
  finish : Cell

namespace Drawing

/-- The level on which agents stand. The floor lies below it and the walls are two high. -/
def level : Int := 228

/-- The levels that a wall fills. -/
def levels : List Int := [level, level + 1]

/-- How far the pillars and the walls at the edge stand from the middle of a clearing. -/
def reach : Int := 2

def placeOf (c : Cell) (y : Int) : Place := ⟨c.x, y, c.z⟩

def last (d : Drawing) : Int := coordinate d.grid.size - 1

/-! ## Floor and walls -/

/-- The floor under the whole square, and two levels of air above it. -/
def ground (d : Drawing) : List Stroke :=
  [.cuboid ⟨0, level - 1, 0⟩ ⟨d.last, level - 1, d.last⟩ .sandstone,
    .cuboid ⟨0, level, 0⟩ ⟨d.last, level + 1, d.last⟩ .air]

/-- The clearing around a cell is three cells wide. -/
def inClearing (middle c : Cell) : Bool :=
  decide ((c.x - middle.x).natAbs ≤ 1) && decide ((c.z - middle.z).natAbs ≤ 1)

/-- A wall of the maze is left out where a clearing is. -/
def isWall (d : Drawing) (c : Cell) : Bool :=
  !d.grid.isOpen c && !inClearing d.start c && !inClearing d.finish c

def walls (d : Drawing) : List Stroke :=
  (d.grid.cells.filter d.isWall).flatMap fun c =>
    levels.map fun y => .block (placeOf c y) .stonebrick

/-! ## Clearings -/

/-- Pillars stand only on the outer ring, so that no corridor is blocked. -/
def pillars (d : Drawing) (middle : Cell) : List Cell :=
  [middle.offset (-reach) (-reach), middle.offset reach (-reach), middle.offset (-reach) reach,
    middle.offset reach reach].filter fun c => d.grid.contains c && d.grid.onBorder c

/-- Clears the space around a cell, puts up its pillars and marks its middle. -/
def clearing (d : Drawing) (middle : Cell) (marker : Block) : List Stroke :=
  .cuboid (placeOf (middle.offset (-1) (-1)) level) (placeOf (middle.offset 1 1) (level + 1))
      .air ::
    (levels.flatMap fun y => (d.pillars middle).map fun c => .block (placeOf c y) .stonebrick) ++
    [.block (placeOf middle (level - 1)) marker]

/-! ## Walls at the edge -/

/-- The direction of the nearby edge, or zero if no edge is near. -/
def outward (d : Drawing) (v : Int) : Int :=
  if v ≤ reach then -1 else if d.last - reach ≤ v then 1 else 0

def arm : List Int := [-2, -1, 0, 1, 2]

/-- Towards each edge that is near, a row of five cells two steps away from the anchor. -/
def edgeCells (d : Drawing) (anchor : Cell) : List Cell :=
  let dx := d.outward anchor.x
  let dz := d.outward anchor.z
  (if dz = 0 then [] else arm.map fun i => anchor.offset i (dz * reach)) ++
    (if dx = 0 then [] else arm.map fun i => anchor.offset (dx * reach) i)

/-- A wall from the floor on, so that nobody walks off the edge. -/
def edgeWalls (d : Drawing) (anchor : Cell) : List Stroke :=
  (d.edgeCells anchor).flatMap fun c =>
    [level - 1, level, level + 1].map fun y => .block (placeOf c y) .stonebrick

/-! ## The whole -/

def details (d : Drawing) : List Stroke :=
  d.walls ++ d.clearing d.start .grass ++ d.clearing d.finish .emerald ++ d.edgeWalls d.start ++
    d.edgeWalls d.finish

/-- All strokes in the order in which they are drawn. -/
def strokes (d : Drawing) : List Stroke := d.ground ++ d.details

end Drawing

end Labyrinth

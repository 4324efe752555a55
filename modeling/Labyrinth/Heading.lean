import Labyrinth.Cell

/-!
# Headings

A heading is one of the four directions that an agent can face. Its yaw is measured in degrees and
grows clockwise seen from above, from south over west.
-/

namespace Labyrinth

inductive Heading where
  | south
  | west
  | north
  | east
deriving DecidableEq, Inhabited

namespace Heading

def all : List Heading := [.south, .west, .north, .east]

def yaw : Heading → Int
  | .south => 0
  | .west => 90
  | .north => 180
  | .east => 270

/-- The heading of a yaw, which may lie outside one full turn. -/
def ofYaw? (yaw : Int) : Option Heading :=
  match yaw % 360 with
  | 0 => some .south
  | 90 => some .west
  | 180 => some .north
  | 270 => some .east
  | _ => none

/-- How a move forward changes the two coordinates. -/
def step : Heading → Int × Int
  | .south => (0, 1)
  | .west => (-1, 0)
  | .north => (0, -1)
  | .east => (1, 0)

/-- The heading of a step to an adjacent cell. A step to any other cell has none. -/
def ofStep? : Int × Int → Option Heading
  | (0, 1) => some .south
  | (-1, 0) => some .west
  | (0, -1) => some .north
  | (1, 0) => some .east
  | _ => none

/-- The heading after a quarter turn clockwise. -/
def right : Heading → Heading
  | .south => .west
  | .west => .north
  | .north => .east
  | .east => .south

/-- The heading after a quarter turn counterclockwise. -/
def left : Heading → Heading
  | .south => .east
  | .east => .north
  | .north => .west
  | .west => .south

/-- The rotation from one heading to another, more than -180 and at most 180 degrees. -/
def angleTo (a b : Heading) : Int :=
  let turn := (b.yaw - a.yaw) % 360
  if 180 < turn then turn - 360 else turn

def name : Heading → String
  | .south => "South"
  | .west => "West"
  | .north => "North"
  | .east => "East"

@[simp] theorem ofStep?_step (h : Heading) : ofStep? h.step = some h := by cases h <;> rfl

end Heading

end Labyrinth

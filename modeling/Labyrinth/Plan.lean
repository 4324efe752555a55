import Labyrinth.Command

/-!
# Plans

A plan walks a path of adjacent cells: before each step it turns the agent to face the next cell,
then moves it forward. Every action of a plan records the cell on which the agent then stands.
-/

namespace Labyrinth

/-- A command and the cell on which the agent stands after it. -/
structure Action where
  command : Command
  target : Cell
deriving DecidableEq, Inhabited

/-- A step of a path between cells that are not adjacent. The index is that of its second cell. -/
structure BrokenStep where
  index : Nat
  before : Cell
  after : Cell
deriving DecidableEq

def BrokenStep.message (b : BrokenStep) : String :=
  "Path step " ++ toString b.index ++ " goes from " ++ b.before.text ++ " to " ++ b.after.text ++
    ", which are not 4-adjacent"

namespace Plan

/-- The turns that make an agent face a heading. A half turn goes to the right. -/
def turns (facing required : Heading) : List Command :=
  match facing.angleTo required with
  | 90 => [.turnRight]
  | -90 => [.turnLeft]
  | 180 => [.turnRight, .turnRight]
  | _ => []

/-- The heading that leads from a cell to the next one. -/
def required? (here next : Cell) : Option Heading :=
  Heading.ofStep? (next.x - here.x, next.z - here.z)

/-- The heading that leads from a cell to the next one where the differences wrap around. -/
def requiredWrapped? (here next : Cell) : Option Heading :=
  Heading.ofStep? (wrap (next.x - here.x), wrap (next.z - here.z))

/-- Plans the rest of a path, whose first cell has the given index. Each step is judged by
`required`. -/
def walk (required : Cell → Cell → Option Heading) (index : Nat) (p : Pose) :
    List Cell → Except BrokenStep (List Action)
  | [] => .ok []
  | next :: rest =>
    match required p.cell next with
    | none => .error ⟨index, p.cell, next⟩
    | some heading => do
      let actions ← walk required (index + 1) ⟨next, heading⟩ rest
      return (turns p.heading heading).map (⟨·, p.cell⟩) ++ ⟨.moveForward, next⟩ :: actions

/-- Plans a path for an agent that stands on its first cell and looks along `heading`. -/
def ofPath (path : List Cell) (heading : Heading) : Except BrokenStep (List Action) :=
  match path with
  | [] => .ok []
  | first :: rest => walk required? 1 ⟨first, heading⟩ rest

/-- Plans a path over cells whose coordinates wrap around at 32 bits. -/
def ofPathWrapped (path : List Cell) (heading : Heading) : Except BrokenStep (List Action) :=
  match path with
  | [] => .ok []
  | first :: rest => walk requiredWrapped? 1 ⟨first, heading⟩ rest

end Plan

end Labyrinth

import Labyrinth.Plan
import Labyrinth.Session.Role

/-!
# Spawns

Roles with an even number start on the start cell of the maze and look south. The others start on
its end cell and look north, and walk the route backwards.
-/

namespace Labyrinth

/-- Where a role enters a maze with the given start and end. -/
def Role.spawn (r : Role) (start finish : Cell) : Pose :=
  if r.number % 2 = 0 then ⟨start, .south⟩ else ⟨finish, .north⟩

/-- The route of a role, given the path from start to end. -/
def Role.route (r : Role) (path : List Cell) (start finish : Cell) : List Cell :=
  if (r.spawn start finish).cell = start then path else path.reverse

def Role.plan (r : Role) (path : List Cell) (start finish : Cell) :
    Except BrokenStep (List Action) :=
  Plan.ofPath (r.route path start finish) (r.spawn start finish).heading

end Labyrinth

import Labyrinth.Route.Frontier

/-!
# Shortest routes

Two frontiers grow from both ends in turn, a whole layer each time. The first cell on which they
meet lies on a shortest route.
-/

namespace Labyrinth.Route

/-- The way from one root to the meeting cell, and on from there to the other root. -/
def join (forward backward : Frontier) (meeting : Cell) : List Cell :=
  (forward.wayBack meeting).reverse ++ (backward.wayBack meeting).tail

/-- Grows `near` and `far` in turn until they meet or one of them has no layer left. `ahead` tells
whether `near` has the start of the route as its root. -/
def search (grid : Grid) (ahead : Bool) (near far : Frontier) : List Cell :=
  if h : near.layer = [] ∨ far.layer = [] then []
  else
    have := Frontier.left_grow_lt grid far.holds (not_or.1 h).1
    let r := near.grow grid far.holds
    match r.2 with
    | some meeting => if ahead then join r.1 far meeting else join far r.1 meeting
    | none => search grid (!ahead) far r.1
termination_by near.left grid + far.left grid

/-- A shortest route of open cells from `start` to `finish`, or nothing if there is none. -/
def shortest (grid : Grid) (start finish : Cell) : List Cell :=
  if !grid.isOpen start || !grid.isOpen finish then []
  else if start = finish then [start]
  else search grid true (.ofRoot start) (.ofRoot finish)

end Labyrinth.Route

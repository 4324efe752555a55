import Labyrinth.Route.Frontier

/-!
# Floods

A flood spreads from a start over the open cells. It keeps for each cell that it has come to the
number of steps that it took, and it has one queue: of the cells in it the first one found spreads
first.
-/

namespace Labyrinth

structure Flood where
  /-- The cells that the flood has come to, with their distances. -/
  distances : Std.HashMap Cell Nat
  /-- The cells from which it has not spread yet, in the order of discovery. -/
  queue : List Cell
  queued : ∀ c ∈ queue, c ∈ distances

namespace Flood

/-- Only the start has been reached. -/
def ofStart (start : Cell) : Flood where
  distances := (∅ : Std.HashMap Cell Nat).insert start 0
  queue := [start]
  queued c hc := by simp [List.mem_singleton.mp hc]

/-- Takes up the new ones of some cells, which are at distance `d`. -/
def visit (d : Nat) (f : Flood) : List Cell → Flood
  | [] => f
  | n :: ns =>
    if f.distances.contains n then f.visit d ns
    else
      Flood.visit d
        { distances := f.distances.insert n d
          queue := f.queue ++ [n]
          queued := by
            intro c hc
            rw [List.mem_append, List.mem_singleton] at hc
            rcases hc with hc | rfl
            · exact Std.HashMap.mem_insert.mpr (.inr (f.queued c hc))
            · exact Std.HashMap.mem_insert_self } ns

/-- The flood without the first cell of its queue. -/
def pop (f : Flood) (rest : List Cell) (h : ∀ c ∈ rest, c ∈ f.queue) : Flood where
  distances := f.distances
  queue := rest
  queued c hc := f.queued c (h c hc)

/-! ## Progress -/

/-- The cells that the flood has not come to, and those in its queue. -/
def left (grid : Grid) (f : Flood) : Nat := Frontier.unheld grid f.distances + f.queue.length

theorem left_visit_le {grid : Grid} (d : Nat) {ns : List Cell} (f : Flood)
    (hns : ∀ n ∈ ns, n ∈ Frontier.places grid) : (f.visit d ns).left grid ≤ f.left grid := by
  induction ns generalizing f with
  | nil => exact Nat.le_refl _
  | cons n ns ih =>
    have hlater := fun f => ih f fun m hm => hns m (List.mem_cons_of_mem _ hm)
    unfold visit
    split
    · exact hlater f
    · have hlt := Frontier.unheld_insert_lt (hns n List.mem_cons_self) ‹_› d
      refine Nat.le_trans (hlater _) ?_
      simp only [left, List.length_append, List.length_singleton]
      omega

theorem left_spread_lt (grid : Grid) (d : Nat) {f : Flood} {c : Cell} {rest : List Cell}
    (h : f.queue = c :: rest) (hrest : ∀ c ∈ rest, c ∈ f.queue) :
    ((f.pop rest hrest).visit d (grid.openNeighbors c)).left grid < f.left grid := by
  have hplaces : ∀ n ∈ grid.openNeighbors c, n ∈ Frontier.places grid := fun n hn =>
    Frontier.mem_places_of_isOpen (Grid.mem_openNeighbors.mp hn).2
  have hle := left_visit_le d (f.pop rest hrest) hplaces
  simp only [left, pop, h, List.length_cons] at hle ⊢
  omega

/-! ## Spreading -/

/-- Spreads until the queue is empty. The neighbours of a cell are one step further off than it. -/
def run (grid : Grid) (f : Flood) : Std.HashMap Cell Nat :=
  match h : f.queue with
  | [] => f.distances
  | c :: rest =>
    have hrest : ∀ x ∈ rest, x ∈ f.queue := fun _ hx => h ▸ List.mem_cons_of_mem c hx
    have hc : c ∈ f.distances := f.queued c (h ▸ List.mem_cons_self)
    let d := f.distances[c]
    have := left_spread_lt grid (d + 1) h hrest
    run grid ((f.pop rest hrest).visit (d + 1) (grid.openNeighbors c))
termination_by f.left grid

end Flood

namespace Route

/-- The distance of every open cell that can be reached from the start. -/
def distances (grid : Grid) (start : Cell) : Std.HashMap Cell Nat :=
  if grid.isOpen start then (Flood.ofStart start).run grid else ∅

end Route

end Labyrinth

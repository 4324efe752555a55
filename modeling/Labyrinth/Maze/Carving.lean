import Labyrinth.Grid.Basic
import Labyrinth.Maze.Plot
import Labyrinth.Random.KeyStream

/-!
# Carving

A maze is carved out of a square of walls by walking two cells at a time. The trail leads from the
current cell back to the start. From the current cell the walk breaks through to one of the uncarved
cells beside it, chosen by chance. If there is none, it goes one cell back. It ends when the trail
is used up.
-/

namespace Labyrinth

/-- A choice of one of `n + 1` things, by chance with states in `σ`. -/
abbrev Chance (σ : Type) := (n : Nat) → σ → Fin (n + 1) × σ

namespace Grid

def wallCount (g : Grid) : Nat := g.tiles.count .wall

theorem wallCount_dig_le (g : Grid) (c : Cell) : (g.dig c).wallCount ≤ g.wallCount := by
  simp only [wallCount, dig, Array.setIfInBounds]
  split
  · rw [Array.count_set]; simp
  · exact Nat.le_refl _

theorem wallCount_dig_lt {g : Grid} {c : Cell} (h : g.isWall c) :
    (g.dig c).wallCount < g.wallCount := by
  have h : g.get? c = some .wall := of_decide_eq_true h
  unfold get? at h
  split at h
  · obtain ⟨hi, hw⟩ := Array.getElem?_eq_some_iff.1 h
    have hpos : 0 < g.tiles.count .wall :=
      Array.count_pos_iff.2 (hw ▸ Array.getElem_mem hi)
    simp only [wallCount, dig, Array.setIfInBounds, hi, dite_true, Array.count_set, hw]
    have hne : (Tile.floor == Tile.wall) = false := rfl
    rw [hne, beq_self_eq_true, if_pos rfl, if_neg Bool.false_ne_true]
    omega
  · cases h

end Grid

/-- A maze being carved, with the trail from the current cell back to the start. -/
structure Carving where
  grid : Grid
  trail : List Cell

namespace Carving

/-- Only the start is open, and the walk begins there. -/
def ofPlot (p : Plot) : Carving := ⟨(Grid.filled p.size).dig p.start, [p.start]⟩

/-- The cell can still be carved: it is a wall inside the outer ring. -/
def uncarved (g : Grid) (c : Cell) : Bool := g.isWall c && !g.onBorder c

/-- The directions in which an uncarved cell lies two cells away. -/
def exits (g : Grid) (here : Cell) : List (Int × Int) :=
  Cell.directions.filter fun d => uncarved g (here.offset (2 * d.1) (2 * d.2))

/-- Opens the cell two steps away and the one in between, and goes there. -/
def breakThrough (c : Carving) (here : Cell) (d : Int × Int) : Carving :=
  let there := here.offset (2 * d.1) (2 * d.2)
  ⟨(c.grid.dig there).dig (here.offset d.1 d.2), there :: c.trail⟩

/-- One step. With the trail used up it changes nothing. -/
def step {σ : Type} (chance : Chance σ) (c : Carving) (s : σ) : Carving × σ :=
  match c.trail with
  | [] => (c, s)
  | here :: back =>
    match exits c.grid here with
    | [] => (⟨c.grid, back⟩, s)
    | d :: ds =>
      let (i, s) := chance ds.length s
      (c.breakThrough here ((d :: ds)[i]), s)

/-- Twice the walls left, and the length of the trail. -/
def left (c : Carving) : Nat := 2 * c.grid.wallCount + c.trail.length

theorem left_breakThrough_lt {c : Carving} {here : Cell} {d : Int × Int}
    (h : d ∈ exits c.grid here) : (c.breakThrough here d).left < c.left := by
  simp only [exits, uncarved, List.mem_filter, Bool.and_eq_true] at h
  have hlt := Grid.wallCount_dig_lt h.2.1
  have hle := Grid.wallCount_dig_le (c.grid.dig (here.offset (2 * d.1) (2 * d.2)))
    (here.offset d.1 d.2)
  simp only [left, breakThrough, List.length_cons]
  omega

theorem left_step_lt {σ : Type} (chance : Chance σ) {c : Carving} (s : σ) (h : c.trail ≠ []) :
    (c.step chance s).1.left < c.left := by
  simp only [step]
  split
  · contradiction
  · rename_i here back ht
    split
    · simp [left, ht]
    · rename_i d ds he
      apply left_breakThrough_lt
      rw [he]
      exact List.getElem_mem _

/-- Takes steps until the trail is used up. Each of them lowers `left`. -/
def finish {σ : Type} (chance : Chance σ) (c : Carving) (s : σ) : Grid × σ :=
  if h : c.trail = [] then (c.grid, s)
  else
    have := left_step_lt chance s h
    let r := c.step chance s
    finish chance r.1 r.2
termination_by c.left

end Carving

namespace Plot

def carve {σ : Type} (p : Plot) (chance : Chance σ) (s : σ) : Grid × σ :=
  (Carving.ofPlot p).finish chance s

def carveSeeded (p : Plot) (seed : UInt64) : Grid :=
  (p.carve Random.keyStream.choose (.ofSeed seed)).1

end Plot

end Labyrinth

import Labyrinth.Grid.Stored
import Labyrinth.Proofs.Config.Written
import Labyrinth.Proofs.Except
import Labyrinth.Proofs.Grid.Drawn
import Labyrinth.Proofs.Maze.Carved

/-!
# Grids that store all their tiles

Grids that are filled, read from rows or carved store one tile for each cell, and whoever looks at
them finds it. Reading JSON grants no such thing: every grid of a size that fits its field can be
read, and if tiles are missing then each way to look at the grid goes wrong somewhere.
-/

namespace Labyrinth

namespace Grid

variable {g : Grid} {c : Cell} {i : ℕ}

/-! ## Looking at a grid -/

/-- No tile of the square is missing. There may be more tiles than cells. -/
def Covered (g : Grid) : Prop := g.size * g.size ≤ g.tiles.size

instance (g : Grid) : Decidable g.Covered := inferInstanceAs (Decidable (_ ≤ _))

theorem mul_add_lt {n x z : ℕ} (hx : x < n) (hz : z < n) : z * n + x < n * n := by
  have hle := Nat.mul_le_mul_right n (Nat.succ_le_of_lt hz)
  rw [Nat.succ_mul] at hle
  omega

theorem Covered.index_lt (h : g.Covered) (hc : g.contains c) : g.index c < g.tiles.size := by
  obtain ⟨hx, hz, hxs, hzs⟩ := contains_iff.mp hc
  refine Nat.lt_of_lt_of_le ?_ h
  unfold index
  apply mul_add_lt <;> omega

/-- The ways in which grids are made, but for reading them from JSON. -/
inductive Made : Grid → Prop where
  | filled (n : ℕ) : Made (.filled n)
  | rows {rows : List String} {g : Grid} (h : ofRows? rows = some g) : Made g
  | carved {σ : Type} {size : ℕ} {start : Cell} {p : Plot}
      (hp : Plot.withStart size start = .ok p) (chance : Chance σ) (s : σ) :
      Made (p.carve chance s).1

end Grid

theorem Carving.wellFormed_step {σ : Type} (chance : Chance σ) {c : Carving} (s : σ)
    (ht : c.trail ≠ []) (h : c.grid.WellFormed) : (c.step chance s).1.grid.WellFormed := by
  obtain ⟨here, back, ht⟩ := List.exists_cons_of_ne_nil ht
  rcases step_cases chance s ht with ⟨-, hstep⟩ | ⟨d, -, hstep⟩
  · rw [hstep]
    exact h
  · rw [hstep]
    exact (h.dig _).dig _

theorem Plot.wellFormed_carve {σ : Type} (p : Plot) (chance : Chance σ) (s : σ) :
    (p.carve chance s).1.WellFormed := by
  obtain ⟨c, hc, -, hgrid⟩ := Carving.exists_finish (P := fun c => c.grid.WellFormed) chance
    (fun _ s ht h => Carving.wellFormed_step chance s ht h) s
    (c := .ofPlot p) ((Grid.wellFormed_filled _).dig _)
  rw [carve, hgrid]
  exact hc

namespace Grid

variable {g : Grid}

theorem Made.wellFormed (h : Made g) : g.WellFormed := by
  cases h with
  | filled n => exact wellFormed_filled n
  | rows h =>
    obtain ⟨table, htable, -⟩ := ofRows?_eq_some_iff.mp h
    exact htable.wellFormed
  | carved hp chance s => exact Plot.wellFormed_carve _ chance s

end Grid

end Labyrinth

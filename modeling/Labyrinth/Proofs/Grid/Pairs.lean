import Labyrinth.Proofs.Grid.Counting
import Mathlib.Algebra.GroupWithZero.Nat

/-!
# Pairs of open cells

The open cells are listed row by row, each of them once. A pair of adjacent ones is counted once by
looking to the east and to the south of each open cell, and twice by looking at all its neighbours:
from the one cell and from the other.
-/

namespace Labyrinth

/-- Row by row from the north, and from the west within a row. -/
def Cell.RowMajor (a b : Cell) : Prop := a.z < b.z ∨ a.z = b.z ∧ a.x < b.x

namespace Grid

variable {g : Grid} {c : Cell}

/-! ## The list of open cells -/

theorem pairwise_rowMajor_cells : g.cells.Pairwise Cell.RowMajor := by
  have hspan : g.span.Pairwise (· < ·) :=
    List.Pairwise.map _ (fun _ _ h => Int.ofNat_lt.mpr h) List.pairwise_lt_range
  unfold cells
  refine List.pairwise_flatMap.mpr ⟨fun z _ => ?_, hspan.imp ?_⟩
  · apply List.Pairwise.map _ _ hspan
    intro x x' hx
    exact .inr ⟨rfl, hx⟩
  · intro z z' hz c hc d hd
    obtain ⟨_, -, rfl⟩ := List.mem_map.mp hc
    obtain ⟨_, -, rfl⟩ := List.mem_map.mp hd
    exact .inl hz

theorem mem_openCells (hsize : g.size < 2147483648) : c ∈ g.openCells ↔ g.isOpen c := by
  rw [openCells, List.mem_filter, and_iff_right_of_imp]
  exact fun h => (mem_cells hsize).mpr (contains_of_isOpen h)

theorem count_openCells (hsize : g.size < 2147483648) (c : Cell) :
    g.openCells.count c = (g.isOpen c).toNat := by
  have hnodup : g.openCells.Nodup := nodup_cells.filter _
  cases hc : g.isOpen c with
  | true => exact List.count_eq_one_of_mem hnodup ((mem_openCells hsize).mpr hc)
  | false => exact List.count_eq_zero_of_not_mem (by simp [mem_openCells hsize, hc])

/-! ## Both cells of a pair -/

theorem pairs_neg (hsize : g.size < 2147483648) (dx dz : Int) :
    g.pairs (-dx) (-dz) = g.pairs dx dz := by
  have hthere : ∀ d : Cell, (d.offset (-dx) (-dz)).offset dx dz = d := fun _ =>
    Cell.offset_eq_iff.mpr rfl
  have hback : ∀ d : Cell, (d.offset dx dz).offset (-dx) (-dz) = d := fun _ =>
    (Cell.offset_eq_iff.mp rfl).symm
  have hother : ((g.cells.filter fun d => g.isOpen d && g.isOpen (d.offset dx dz)).map
      (·.offset dx dz)).Perm
        (g.cells.filter fun d => g.isOpen d && g.isOpen (d.offset (-dx) (-dz))) := by
    refine (List.perm_ext_iff_of_nodup ?_ (nodup_cells.filter _)).mpr fun d => ?_
    · apply (nodup_cells.filter _).map
      intro a b hab
      simpa only [hback] using congrArg (·.offset (-dx) (-dz)) hab
    · simp only [List.mem_map, List.mem_filter, Bool.and_eq_true, mem_cells hsize]
      constructor
      · rintro ⟨c, ⟨-, hc, hd⟩, rfl⟩
        exact ⟨contains_of_isOpen hd, hd, by rwa [hback]⟩
      · rintro ⟨-, hd, hc⟩
        exact ⟨d.offset (-dx) (-dz), ⟨contains_of_isOpen hc, hc, by rwa [hthere]⟩, hthere d⟩
  rw [pairs, pairs, List.countP_eq_length_filter, List.countP_eq_length_filter, ← hother.length_eq,
    List.length_map]

theorem countP_openCells_offset (dx dz : Int) :
    (g.openCells.countP fun c => g.isOpen (c.offset dx dz)) = g.pairs dx dz := by
  rw [openCells, List.countP_filter, pairs]
  exact List.countP_congr fun c _ => by simp [and_comm]

theorem sum_length_openNeighbors (l : List Cell) :
    (l.map fun c => (g.openNeighbors c).length).sum =
      (l.countP fun c => g.isOpen (c.offset 0 1)) + (l.countP fun c => g.isOpen (c.offset 0 (-1))) +
        (l.countP fun c => g.isOpen (c.offset 1 0)) +
          l.countP fun c => g.isOpen (c.offset (-1) 0) := by
  induction l with
  | nil => rfl
  | cons c l ih =>
    rw [List.map_cons, List.sum_cons, ih, openNeighbors, ← List.countP_eq_length_filter]
    simp only [Cell.neighbors, Cell.directions, List.map_cons, List.map_nil, List.countP_cons,
      List.countP_nil]
    omega

/-- A pair stands among the neighbours of both its cells, and is ahead of one of them only. -/
theorem sum_openNeighbors_eq (hsize : g.size < 2147483648) :
    (g.openCells.map fun c => (g.openNeighbors c).length).sum = 2 * g.openAdjacencyCount := by
  have hnorth : g.pairs 0 (-1) = g.pairs 0 1 := pairs_neg hsize 0 1
  have hwest : g.pairs (-1) 0 = g.pairs 1 0 := pairs_neg hsize 1 0
  rw [sum_length_openNeighbors, openAdjacencyCount_eq]
  simp only [countP_openCells_offset, hnorth, hwest]
  omega

/-- The open cells are listed row by row, each of them once, and there are as many as floor tiles.
Each of two open cells is a neighbour of the other, or neither is. Over all open cells there are
twice as many neighbours as there are pairs of adjacent ones. -/
theorem adjacencies_counted (hg : g.WellFormed) (hsize : g.size < 2147483648) :
    (∀ c, g.openCells.count c = (g.isOpen c).toNat) ∧
      g.openCells.Pairwise Cell.RowMajor ∧
      g.openCells.length = g.openCount ∧
      (∀ c d, g.isOpen c → g.isOpen d → (d ∈ g.openNeighbors c ↔ c ∈ g.openNeighbors d)) ∧
      (g.openCells.map fun c => (g.openNeighbors c).length).sum = 2 * g.openAdjacencyCount := by
  refine ⟨count_openCells hsize, pairwise_rowMajor_cells.filter _, length_openCells hg hsize, ?_,
    sum_openNeighbors_eq hsize⟩
  intro c d hc hd
  rw [mem_openNeighbors, mem_openNeighbors, and_iff_left hd, and_iff_left hc]
  exact ⟨Cell.Adjacent.symm, Cell.Adjacent.symm⟩

/-- Around a wall in the middle, all along the border, eight open cells have eight pairs. -/
theorem adjacencies_counted_ring :
    let g : Grid :=
      ⟨3, #[.floor, .floor, .floor, .floor, .wall, .floor, .floor, .floor, .floor]⟩
    g.WellFormed ∧ g.size < 2147483648 ∧ g.openCells.length = 8 ∧
      (g.openCells.map fun c => (g.openNeighbors c).length).sum = 2 * 8 := by
  intro g
  have hg : g.WellFormed := rfl
  have hsize : g.size < 2147483648 := by decide
  have hpairs : g.openAdjacencyCount = 8 := by decide +kernel
  obtain ⟨-, -, hlength, -, hsum⟩ := adjacencies_counted hg hsize
  rw [hpairs] at hsum
  exact ⟨hg, hsize, hlength, hsum⟩

end Grid

end Labyrinth

import Labyrinth.Proofs.Grid.Dig

/-!
# Counting cells

The cells of a grid are listed row by row, in the order in which their tiles are stored. So there
are as many open cells as floor tiles. A condition on the column and one on the row are met by as
many cells as there are pairs of such a column and such a row.
-/

namespace Labyrinth.Grid

variable {g : Grid} {c : Cell}

/-! ## Row by row -/

theorem flatMap_range_mul_add (m n : Nat) :
    ((List.range n).flatMap fun z => (List.range m).map fun x => z * m + x) =
      List.range (n * m) := by
  induction n with
  | zero => simp
  | succ n ih =>
    rw [List.range_succ, List.flatMap_append, ih, Nat.succ_mul, List.range_add]
    simp

theorem span_eq (hsize : g.size < 2147483648) : g.span = (List.range g.size).map Int.ofNat := by
  rw [span, coordinate_of_lt hsize, Int.toNat_natCast]

theorem map_index_cells (hsize : g.size < 2147483648) :
    g.cells.map g.index = List.range (g.size * g.size) := by
  rw [← flatMap_range_mul_add, cells, span_eq hsize, List.map_flatMap, List.flatMap_map]
  simp only [List.map_map]
  rfl

theorem length_openCells (hg : g.WellFormed) (hsize : g.size < 2147483648) :
    g.openCells.length = g.openCount := by
  have hopen : ∀ d ∈ g.cells, g.isOpen d = decide (g.tiles[g.index d]? = some .floor) := by
    intro d hd
    rw [isOpen, get?, if_pos ((mem_cells hsize).mp hd)]
  have htiles : (List.range g.tiles.size).map (fun i => g.tiles[i]?) =
      g.tiles.toList.map some := by
    refine List.ext_getElem (by simp) fun i hi _ => ?_
    simp only [List.length_map, List.length_range] at hi
    simp [hi]
  calc g.openCells.length
      = g.cells.countP fun d => decide (g.tiles[g.index d]? = some .floor) := by
        rw [openCells, ← List.countP_eq_length_filter]
        exact List.countP_congr fun d hd => by rw [hopen d hd]
    _ = ((g.cells.map g.index).map fun i => g.tiles[i]?).countP (decide <| · = some .floor) := by
        rw [List.countP_map, List.countP_map]
        rfl
    _ = (g.tiles.toList.map some).countP (decide <| · = some .floor) := by
        rw [map_index_cells hsize, ← hg, htiles]
    _ = g.openCount := by
        rw [List.countP_map, openCount, ← Array.count_toList]
        exact List.countP_congr fun t _ => by simp

/-! ## Columns and rows -/

theorem countP_cells (p q : Int → Bool) :
    g.cells.countP (fun c => p c.x && q c.z) = g.span.countP p * g.span.countP q := by
  have hrow : ∀ z, (g.span.map fun x => (⟨x, z⟩ : Cell)).countP (fun c => p c.x && q c.z) =
      if q z then g.span.countP p else 0 := by
    intro z
    rw [List.countP_map]
    cases hq : q z <;> simp [Function.comp_def, hq]
  have hrows : ∀ zs : List Int, (zs.flatMap fun z => g.span.map fun x => (⟨x, z⟩ : Cell)).countP
      (fun c => p c.x && q c.z) = g.span.countP p * zs.countP q := by
    intro zs
    induction zs with
    | nil => rfl
    | cons z zs ih =>
      rw [List.flatMap_cons, List.countP_append, hrow, ih, List.countP_cons]
      cases q z <;> simp [Nat.mul_succ, Nat.add_comm]
  exact hrows g.span

/-! ## Digging -/

theorem countP_openCells_dig (hg : g.WellFormed) (hsize : g.size < 2147483648) (hc : g.isWall c)
    (q : Cell → Bool) : (g.dig c).openCells.countP q = g.openCells.countP q + (q c).toNat := by
  have hin : g.contains c := (isWall_iff.mp hc).1
  have hclosed : g.isOpen c = false := Bool.not_eq_true _ ▸ not_isOpen_of_isWall hc
  rw [openCells, openCells, List.countP_filter, List.countP_filter,
    show (g.dig c).cells = g.cells from rfl,
    ← countP_or_eq (e := c) nodup_cells fun _ => ⟨(mem_cells hsize).mpr hin, by simp [hclosed]⟩]
  refine List.countP_congr fun d _ => ?_
  simp only [Bool.and_eq_true, Bool.or_eq_true, beq_iff_eq, isOpen_dig hg hin]
  by_cases hd : d = c
  · subst hd
    simp [hclosed]
  · simp [hd]

end Labyrinth.Grid

import Labyrinth.Grid.Basic
import Mathlib.Data.List.Count
import Mathlib.Data.List.Nodup

/-!
# Digging

What one more floor tile changes: which cells are open, how many there are, and how many pairs of
them are adjacent.
-/

namespace Labyrinth

theorem Cell.offset_eq_iff {c d : Cell} {dx dz : Int} :
    d.offset dx dz = c ↔ d = c.offset (-dx) (-dz) := by
  obtain ⟨x, z⟩ := d
  obtain ⟨cx, cz⟩ := c
  simp only [offset, mk.injEq]
  omega

namespace Grid

variable {g : Grid} {c d : Cell}

theorem contains_iff :
    g.contains c ↔ 0 ≤ c.x ∧ 0 ≤ c.z ∧ c.x < g.size ∧ c.z < g.size := by
  simp only [contains, Bool.and_eq_true, decide_eq_true_eq, and_assoc]

theorem isOpen_iff : g.isOpen c ↔ g.contains c ∧ g.tiles[g.index c]? = some .floor := by
  simp only [isOpen, get?]
  split <;> simp_all

theorem isWall_iff : g.isWall c ↔ g.contains c ∧ g.tiles[g.index c]? = some .wall := by
  simp only [isWall, get?]
  split <;> simp_all

theorem contains_of_isOpen (h : g.isOpen c) : g.contains c := (isOpen_iff.mp h).1

theorem WellFormed.isWall_of_not_isOpen (hg : g.WellFormed) (hc : g.contains c)
    (h : ¬ g.isOpen c) : g.isWall c := by
  rw [isOpen_iff, not_and] at h
  rw [isWall_iff]
  have hlt := hg.index_lt hc
  have hfloor := h hc
  rw [Array.getElem?_eq_getElem hlt] at hfloor ⊢
  refine ⟨hc, ?_⟩
  cases htile : g.tiles[g.index c] with
  | wall => rfl
  | floor => exact absurd (congrArg some htile) hfloor

theorem not_isOpen_of_isWall (h : g.isWall c) : ¬ g.isOpen c := by
  rw [isWall_iff] at h
  rw [isOpen_iff, h.2]
  simp

theorem index_inj (hc : g.contains c) (hd : g.contains d) (h : g.index c = g.index d) : c = d := by
  obtain ⟨hcx, hcz, hcx', -⟩ := contains_iff.mp hc
  obtain ⟨hdx, hdz, hdx', -⟩ := contains_iff.mp hd
  have hmod : c.x.toNat = d.x.toNat := by
    have := congrArg (· % g.size) h
    simp only [index, Nat.mul_add_mod_self_right] at this
    rwa [Nat.mod_eq_of_lt (by omega), Nat.mod_eq_of_lt (by omega)] at this
  have hdiv : c.z.toNat = d.z.toNat := by
    rw [index, index, hmod, Nat.add_right_cancel_iff] at h
    exact Nat.eq_of_mul_eq_mul_right (by omega) h
  obtain ⟨x, z⟩ := c
  obtain ⟨x', z'⟩ := d
  simp only [Cell.mk.injEq] at *
  omega

@[simp] theorem contains_dig : (g.dig c).contains d = g.contains d := rfl

theorem isOpen_dig (hg : g.WellFormed) (hc : g.contains c) :
    (g.dig c).isOpen d ↔ d = c ∨ g.isOpen d := by
  have hlt := hg.index_lt hc
  have htile : (g.dig c).tiles[g.index d]? =
      if g.index c = g.index d then some .floor else g.tiles[g.index d]? := by
    simp only [dig, Array.getElem?_setIfInBounds, hlt, if_true]
  by_cases hdc : d = c
  · subst hdc
    simp only [true_or, iff_true]
    exact isOpen_iff.mpr ⟨hc, by rw [show (g.dig d).index d = g.index d from rfl, htile]; simp⟩
  · rw [isOpen_iff, isOpen_iff, contains_dig]
    simp only [hdc, false_or]
    refine and_congr_right fun hd => ?_
    have hne : g.index c ≠ g.index d := fun h => hdc (index_inj hc hd h).symm
    rw [show (g.dig c).index d = g.index d from rfl, htile, if_neg hne]

theorem dig_comm : (g.dig c).dig d = (g.dig d).dig c := by
  by_cases h : g.index c = g.index d
  · simp only [dig, index] at h ⊢
    rw [h]
  · simp only [dig, index] at h ⊢
    rw [Array.setIfInBounds_comm _ _ h]

theorem openCount_dig (h : g.isWall c) : (g.dig c).openCount = g.openCount + 1 := by
  obtain ⟨hlt, htile⟩ := Array.getElem?_eq_some_iff.mp (isWall_iff.mp h).2
  have hne : (Tile.wall == Tile.floor) = false := rfl
  simp only [openCount, dig, Array.setIfInBounds, hlt, dite_true, Array.count_set, htile, hne,
    beq_self_eq_true, if_true, Bool.false_eq_true, if_false, Nat.sub_zero]

/-! ## Counting cells row by row -/

theorem mem_cells (hsize : g.size < 2147483648) : c ∈ g.cells ↔ g.contains c := by
  obtain ⟨x, z⟩ := c
  simp only [cells, span, coordinate_of_lt hsize, Int.toNat_natCast, List.mem_flatMap,
    List.mem_map, List.mem_range, contains_iff, Cell.mk.injEq]
  constructor
  · rintro ⟨_, ⟨i, hi, rfl⟩, _, ⟨j, hj, rfl⟩, rfl, rfl⟩
    simp only [Int.ofNat_eq_natCast]
    omega
  · rintro ⟨hx, hz, hxs, hzs⟩
    exact ⟨z, ⟨z.toNat, by omega, Int.toNat_of_nonneg hz⟩,
      x, ⟨x.toNat, by omega, Int.toNat_of_nonneg hx⟩, rfl, rfl⟩

theorem nodup_cells : g.cells.Nodup := by
  have hspan : g.span.Nodup := List.nodup_range.map fun _ _ h => Int.ofNat.inj h
  refine List.nodup_flatMap.mpr ⟨fun z _ => hspan.map fun _ _ h => (Cell.mk.inj h).1,
    hspan.imp fun hne => ?_⟩
  intro c hc hc'
  obtain ⟨_, -, rfl⟩ := List.mem_map.mp hc
  obtain ⟨_, -, h⟩ := List.mem_map.mp hc'
  exact hne (Cell.mk.inj h).2.symm

theorem countP_or_eq {l : List Cell} (hl : l.Nodup) {p : Cell → Bool} {e : Cell} {b : Bool}
    (h : b → e ∈ l ∧ p e = false) :
    l.countP (fun d => p d || (b && d == e)) = l.countP p + b.toNat := by
  cases b with
  | false => simp
  | true =>
    obtain ⟨he, hpe⟩ := h rfl
    have hone : l.filter (· == e) = [e] := by
      rw [List.filter_beq, List.count_eq_one_of_mem hl he]
      rfl
    have hrest : (l.filter fun d => !(d == e)).countP (fun d => p d || (true && d == e)) =
        (l.filter fun d => !(d == e)).countP p := by
      refine List.countP_congr fun d hd => ?_
      have hne : (d == e) = false := by simpa using (List.mem_filter.mp hd).2
      simp [hne]
    rw [List.countP_eq_countP_filter_add l _ (· == e), hrest,
      List.countP_eq_countP_filter_add l p (· == e), hone]
    simp [hpe, Nat.add_comm]

/-- How many open cells have an open cell at the given offset. -/
def pairs (g : Grid) (dx dz : Int) : Nat :=
  g.cells.countP fun d => g.isOpen d && g.isOpen (d.offset dx dz)

theorem openAdjacencyCount_eq : g.openAdjacencyCount = g.pairs 1 0 + g.pairs 0 1 := by
  have h : ∀ l : List Cell, ((l.filter g.isOpen).flatMap g.openAhead).length =
      (l.countP fun d => g.isOpen d && g.isOpen (d.offset 1 0)) +
        l.countP fun d => g.isOpen d && g.isOpen (d.offset 0 1) := by
    intro l
    induction l with
    | nil => rfl
    | cons d l ih =>
      cases hd : g.isOpen d with
      | false => simpa [hd] using ih
      | true =>
        rw [List.filter_cons_of_pos hd, List.flatMap_cons, List.length_append, ih]
        cases hr : g.isOpen (d.offset 1 0) <;> cases hb : g.isOpen (d.offset 0 1) <;>
          simp [openAhead, hd, hr, hb] <;> omega
  exact h g.cells

theorem pairs_dig (hg : g.WellFormed) (hsize : g.size < 2147483648) (hc : g.isWall c)
    {dx dz : Int} (hne : dx ≠ 0 ∨ dz ≠ 0) :
    (g.dig c).pairs dx dz = g.pairs dx dz + (g.isOpen (c.offset dx dz)).toNat +
      (g.isOpen (c.offset (-dx) (-dz))).toNat := by
  have hin : g.contains c := (isWall_iff.mp hc).1
  have hclosed : g.isOpen c = false := Bool.not_eq_true _ ▸ not_isOpen_of_isWall hc
  have hopen : ∀ d, (g.dig c).isOpen d = (d == c || g.isOpen d) := by
    intro d
    rw [Bool.eq_iff_iff, isOpen_dig hg hin]
    simp
  have hself : c ≠ c.offset (-dx) (-dz) := by
    obtain ⟨cx, cz⟩ := c
    simp only [Cell.offset, ne_eq, Cell.mk.injEq]
    omega
  have hthere : (c.offset (-dx) (-dz)).offset dx dz = c := Cell.offset_eq_iff.mpr rfl
  rw [pairs, pairs, show (g.dig c).cells = g.cells from rfl,
    ← countP_or_eq (e := c) nodup_cells fun _ => ⟨(mem_cells hsize).mpr hin, by simp [hclosed]⟩,
    ← countP_or_eq (e := c.offset (-dx) (-dz)) nodup_cells fun h =>
      ⟨(mem_cells hsize).mpr (contains_of_isOpen h), by simp [hthere, hclosed, hself.symm]⟩]
  refine List.countP_congr fun d _ => ?_
  rw [hopen, hopen]
  -- The new pairs are the one from the cell and the one to it.
  by_cases hdc : d = c
  · subst hdc
    have hd : d.offset dx dz ≠ d := fun h => hself (Cell.offset_eq_iff.mp h)
    simp [hclosed, hd, hself]
  · by_cases hdb : d = c.offset (-dx) (-dz)
    · subst hdb
      simp [hthere, hclosed, hdc]
    · have hd : d.offset dx dz ≠ c := fun h => hdb (Cell.offset_eq_iff.mp h)
      simp [hdc, hdb, hd]

theorem openAdjacencyCount_dig (hg : g.WellFormed) (hsize : g.size < 2147483648)
    (hc : g.isWall c) :
    (g.dig c).openAdjacencyCount = g.openAdjacencyCount + (g.openNeighbors c).length := by
  have hite : ∀ b : Bool, (if b then 1 else 0) = b.toNat := by decide
  rw [openAdjacencyCount_eq, openAdjacencyCount_eq, pairs_dig hg hsize hc (by decide),
    pairs_dig hg hsize hc (by decide), openNeighbors, ← List.countP_eq_length_filter]
  simp only [Cell.neighbors, Cell.directions, List.map_cons, List.map_nil, List.countP_cons,
    List.countP_nil, hite, Int.neg_zero]
  omega

end Grid

end Labyrinth

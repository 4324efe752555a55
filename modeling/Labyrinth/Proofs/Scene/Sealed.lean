import Labyrinth.Proofs.Maze.Rooms
import Labyrinth.Scene.Drawing
import Labyrinth.Scene.Spawn
import Mathlib.Logic.Relation

/-!
# Sealed scenes

What stands where when a scene is drawn. Inside the square the walls of the maze stand outside the
two clearings and everything else is free. A clearing can cut a hole into the outer ring, and then
the wall at the edge stands behind the hole, so that nobody walks out of the square.
-/

namespace Labyrinth.Drawing

open Cell

variable {d : Drawing} {strokes more : List Stroke} {p : Place} {b marker : Block}
  {anchor c n : Cell} {y : Int}

/-! ## Later strokes overwrite earlier ones -/

theorem blockAt_append :
    blockAt (strokes ++ more) p = (blockAt more p).or (blockAt strokes p) := by
  simp only [blockAt, List.reverse_append, List.find?_append, Option.map_or]

theorem blockAt_concat (s : Stroke) :
    blockAt (strokes ++ [s]) p = if s.covers p then some s.paint else blockAt strokes p := by
  rw [blockAt_append, blockAt, List.reverse_singleton, List.find?_singleton]
  split <;> rfl

theorem blockAt_eq_none (h : ∀ s ∈ strokes, ¬ s.covers p) : blockAt strokes p = none := by
  rw [blockAt, Option.map_eq_none_iff, List.find?_eq_none]
  exact fun s hs => h s (List.mem_reverse.mp hs)

theorem blockAt_eq_some (hpaint : ∀ s ∈ strokes, s.paint = b)
    (h : ∃ s ∈ strokes, s.covers p) : blockAt strokes p = some b := by
  obtain ⟨s, hs, hp⟩ := h
  cases hfind : strokes.reverse.find? (·.covers p) with
  | none => exact absurd hp (List.find?_eq_none.mp hfind s (List.mem_reverse.mpr hs))
  | some t =>
    rw [blockAt, hfind, Option.map_some,
      hpaint t (List.mem_reverse.mp (List.mem_of_find?_eq_some hfind))]

theorem placeOf_inj {z : Int} : placeOf c y = placeOf n z ↔ c = n ∧ y = z := by
  obtain ⟨cx, cz⟩ := c
  obtain ⟨nx, nz⟩ := n
  simp only [placeOf, Place.mk.injEq, Cell.mk.injEq]
  omega

theorem blockAt_columns (cells : List Cell) (ys : List Int) :
    blockAt (cells.flatMap fun c => ys.map fun y => .block (placeOf c y) b) (placeOf c y) =
      if c ∈ cells ∧ y ∈ ys then some b else none := by
  split
  case isTrue h =>
    refine blockAt_eq_some ?_ ⟨.block (placeOf c y) b, ?_, decide_eq_true rfl⟩
    · simp only [List.mem_flatMap, List.mem_map]
      rintro s ⟨_, -, _, -, rfl⟩
      rfl
    · exact List.mem_flatMap.mpr ⟨c, h.1, List.mem_map.mpr ⟨y, h.2, rfl⟩⟩
  case isFalse h =>
    refine blockAt_eq_none ?_
    simp only [List.mem_flatMap, List.mem_map]
    rintro s ⟨e, he, z, hz, rfl⟩ hs
    obtain ⟨rfl, rfl⟩ := placeOf_inj.mp (of_decide_eq_true hs)
    exact h ⟨he, hz⟩

theorem Stroke.between_iff {v first last : Int} :
    between v first last ↔ min first last ≤ v ∧ v ≤ max first last := by
  rw [between, Bool.and_eq_true, decide_eq_true_eq, decide_eq_true_eq]

theorem covers_cuboid {a e : Cell} {low high : Int} (hx : a.x ≤ e.x)
    (hz : a.z ≤ e.z) (hy : low ≤ high) :
    (Stroke.cuboid (placeOf a low) (placeOf e high) b).covers (placeOf c y) ↔
      (a.x ≤ c.x ∧ c.x ≤ e.x) ∧ (a.z ≤ c.z ∧ c.z ≤ e.z) ∧ low ≤ y ∧ y ≤ high := by
  simp only [Stroke.covers, Bool.and_eq_true, Stroke.between_iff, placeOf]
  omega

theorem covers_block {e : Cell} {z : Int} :
    (Stroke.block (placeOf e z) b).covers (placeOf c y) ↔ c = e ∧ y = z := by
  rw [Stroke.covers, decide_eq_true_eq, placeOf_inj]

theorem mem_levels : y ∈ levels ↔ y = level ∨ y = level + 1 := by
  simp only [levels, List.mem_cons, List.not_mem_nil, or_false]

theorem inClearing_iff {m : Cell} :
    inClearing m c ↔ (m.x - 1 ≤ c.x ∧ c.x ≤ m.x + 1) ∧ m.z - 1 ≤ c.z ∧ c.z ≤ m.z + 1 := by
  simp only [inClearing, Bool.and_eq_true, decide_eq_true_eq]
  omega

theorem inClearing_self : inClearing c c := by
  rw [inClearing_iff]
  omega

/-! ## Drawings that fit -/

/-- The anchors lie on rooms inside an odd square whose outer ring has no floor. -/
structure Fitting (d : Drawing) : Prop where
  wellFormed : d.grid.WellFormed
  small : d.grid.size < 2147483648
  size : Plot.GoodSize d.grid.size
  start : Plot.GoodStart d.grid.size d.start
  finish : Plot.GoodStart d.grid.size d.finish
  ring : ∀ c, d.grid.onBorder c → ¬ d.grid.isOpen c

namespace Fitting

theorem last_eq (h : d.Fitting) : d.last = d.grid.size - 1 := by
  rw [last, coordinate_of_lt h.small]

theorem contains_iff (h : d.Fitting) :
    d.grid.contains c ↔ (0 ≤ c.x ∧ c.x ≤ d.last) ∧ 0 ≤ c.z ∧ c.z ≤ d.last := by
  rw [Grid.contains_iff, h.last_eq]
  omega

theorem onBorder_iff :
    d.grid.onBorder c ↔ c.x = 0 ∨ c.z = 0 ∨ c.x = d.last ∨ c.z = d.last := by
  simp only [Grid.onBorder, last, Bool.or_eq_true, decide_eq_true_eq, or_assoc]

theorem anchor_bounds (h : d.Fitting) (ha : Plot.GoodStart d.grid.size anchor) :
    (anchor.x % 2 = 1 ∧ 1 ≤ anchor.x ∧ anchor.x ≤ d.last - 1) ∧
      (anchor.z % 2 = 1 ∧ 1 ≤ anchor.z ∧ anchor.z ≤ d.last - 1) ∧ d.last % 2 = 0 ∧ 4 ≤ d.last := by
  obtain ⟨hin, hx, hz⟩ := ha
  have hsize := h.size
  simp only [Plot.Interior, coordinate_of_lt h.small, Plot.GoodSize, Plot.minSize] at hin hsize
  rw [h.last_eq]
  omega

/-- A pillar would stand on a room, and the outer ring has none. -/
theorem pillars_eq_nil (h : d.Fitting) (ha : Plot.GoodStart d.grid.size anchor) :
    d.pillars anchor = [] := by
  obtain ⟨⟨hx, -⟩, ⟨hz, -⟩, hlast, -⟩ := h.anchor_bounds ha
  have hroom : ∀ c : Cell, c.IsRoom → ¬ (d.grid.contains c && d.grid.onBorder c) := by
    intro c hc hborder
    have := onBorder_iff.mp (Bool.and_eq_true_iff.mp hborder).2
    unfold IsRoom at hc
    omega
  refine List.filter_eq_nil_iff.mpr fun c hc => hroom c ?_
  simp only [List.mem_cons, List.not_mem_nil, or_false] at hc
  rcases hc with rfl | rfl | rfl | rfl
  all_goals
    simp only [IsRoom, offset, reach]
    omega

/-! ## What each part draws -/

theorem zero_le_last (h : d.Fitting) : 0 ≤ d.last := by
  have := h.anchor_bounds h.start
  omega

theorem blockAt_ground (h : d.Fitting) (hc : d.grid.contains c) (hy : y ∈ levels) :
    blockAt d.ground (placeOf c y) = some .air := by
  have hin := h.contains_iff.mp hc
  rw [mem_levels] at hy
  rw [ground, ← List.singleton_append, blockAt_concat, if_pos]
  · rfl
  · refine (covers_cuboid (a := ⟨0, 0⟩) (e := ⟨_, _⟩) h.zero_le_last h.zero_le_last
      (by decide)).mpr ⟨hin.1, hin.2, ?_⟩
    omega

theorem blockAt_ground_floor (h : d.Fitting) (hc : d.grid.contains c) :
    blockAt d.ground (placeOf c (level - 1)) = some .sandstone := by
  have hin := h.contains_iff.mp hc
  rw [ground, ← List.singleton_append, blockAt_concat, if_neg, ← List.nil_append [_],
    blockAt_concat, if_pos]
  · rfl
  · exact (covers_cuboid (a := ⟨0, 0⟩) (e := ⟨_, _⟩) h.zero_le_last h.zero_le_last
      (Int.le_refl _)).mpr ⟨hin.1, hin.2, Int.le_refl _, Int.le_refl _⟩
  · intro hcovers
    have := (covers_cuboid (a := ⟨0, 0⟩) (e := ⟨_, _⟩) h.zero_le_last h.zero_le_last
      (by decide)).mp hcovers
    omega

theorem blockAt_walls (h : d.Fitting) (hc : d.grid.contains c) :
    blockAt d.walls (placeOf c y) =
      if d.isWall c ∧ y ∈ levels then some .stonebrick else none := by
  rw [walls, blockAt_columns]
  simp only [List.mem_filter, (Grid.mem_cells h.small).mpr hc, true_and]

theorem clearing_eq (h : d.Fitting) (ha : Plot.GoodStart d.grid.size anchor) :
    d.clearing anchor marker =
      [.cuboid (placeOf (anchor.offset (-1) (-1)) level)
          (placeOf (anchor.offset 1 1) (level + 1)) .air,
        .block (placeOf anchor (level - 1)) marker] := by
  rw [clearing, h.pillars_eq_nil ha]
  rfl

theorem covers_clearing :
    (Stroke.cuboid (placeOf (anchor.offset (-1) (-1)) level)
      (placeOf (anchor.offset 1 1) (level + 1)) .air).covers (placeOf c y) ↔
        inClearing anchor c ∧ level ≤ y ∧ y ≤ level + 1 := by
  have hx : (anchor.offset (-1) (-1)).x ≤ (anchor.offset 1 1).x := by
    simp only [offset]
    omega
  have hz : (anchor.offset (-1) (-1)).z ≤ (anchor.offset 1 1).z := by
    simp only [offset]
    omega
  rw [covers_cuboid hx hz (by decide), inClearing_iff]
  simp only [offset]
  omega

theorem blockAt_clearing (h : d.Fitting) (ha : Plot.GoodStart d.grid.size anchor)
    (hy : y ∈ levels) :
    blockAt (d.clearing anchor marker) (placeOf c y) =
      if inClearing anchor c then some .air else none := by
  rw [mem_levels] at hy
  have hlevels : level ≤ y ∧ y ≤ level + 1 := by omega
  rw [h.clearing_eq ha, ← List.singleton_append, blockAt_concat, if_neg, ← List.nil_append [_],
    blockAt_concat]
  · simp only [covers_clearing, hlevels, and_true]
    rfl
  · rw [covers_block]
    omega

theorem blockAt_clearing_floor (h : d.Fitting) (ha : Plot.GoodStart d.grid.size anchor) :
    blockAt (d.clearing anchor marker) (placeOf c (level - 1)) =
      if c = anchor then some marker else none := by
  rw [h.clearing_eq ha, ← List.singleton_append, blockAt_concat]
  simp only [covers_block, and_true]
  refine if_congr Iff.rfl rfl (blockAt_eq_none fun s hs hcovers => ?_)
  rw [List.mem_singleton.mp hs, covers_clearing] at hcovers
  omega

/-! ## The walls at the edge -/

theorem mem_edgeCells :
    c ∈ d.edgeCells anchor ↔
      d.outward anchor.z ≠ 0 ∧ c.z = anchor.z + d.outward anchor.z * reach ∧
          anchor.x - 2 ≤ c.x ∧ c.x ≤ anchor.x + 2 ∨
        d.outward anchor.x ≠ 0 ∧ c.x = anchor.x + d.outward anchor.x * reach ∧
          anchor.z - 2 ≤ c.z ∧ c.z ≤ anchor.z + 2 := by
  have harm : ∀ i, i ∈ arm ↔ -2 ≤ i ∧ i ≤ 2 := by
    intro i
    simp only [arm, List.mem_cons, List.not_mem_nil, or_false]
    omega
  obtain ⟨x, z⟩ := c
  simp only [edgeCells, List.mem_append, List.mem_ite_nil_left, List.mem_map, harm, offset,
    Cell.mk.injEq]
  constructor
  · rintro (⟨hz, i, hi, rfl, rfl⟩ | ⟨hx, i, hi, rfl, rfl⟩)
    · exact .inl ⟨hz, rfl, by omega⟩
    · exact .inr ⟨hx, rfl, by omega⟩
  · rintro (⟨hz, rfl, hi⟩ | ⟨hx, rfl, hi⟩)
    · exact .inl ⟨hz, x - anchor.x, by omega, by omega, rfl⟩
    · exact .inr ⟨hx, z - anchor.z, by omega, rfl, by omega⟩

theorem outward_cases {v : Int} (hodd : v % 2 = 1) (hlast : d.last % 2 = 0) (hv : 1 ≤ v)
    (hv' : v ≤ d.last - 1) :
    d.outward v = -1 ∧ v = 1 ∨ d.outward v = 1 ∧ v = d.last - 1 ∨
      d.outward v = 0 ∧ 1 < v ∧ v < d.last - 1 := by
  unfold outward reach
  split
  · omega
  · split
    · omega
    · omega

section Edge

variable (h : d.Fitting) (ha : Plot.GoodStart d.grid.size anchor) (hc : d.grid.contains c)

include h ha hc

theorem not_mem_edgeCells : c ∉ d.edgeCells anchor := by
  obtain ⟨⟨hxo, hx, hx'⟩, ⟨hzo, hz, hz'⟩, hlast, hfour⟩ := h.anchor_bounds ha
  have hcases := outward_cases hxo hlast hx hx'
  have hcases' := outward_cases hzo hlast hz hz'
  have hin := h.contains_iff.mp hc
  rw [mem_edgeCells]
  unfold reach
  omega

/-- Whoever steps out of the square from a clearing stands on a wall at the edge. -/
theorem mem_edgeCells_of_adjacent (hclear : inClearing anchor c) (hn : c.Adjacent n)
    (hout : ¬ d.grid.contains n) : n ∈ d.edgeCells anchor := by
  obtain ⟨⟨hxo, hx, hx'⟩, ⟨hzo, hz, hz'⟩, hlast, hfour⟩ := h.anchor_bounds ha
  rw [h.contains_iff] at hc hout
  rw [inClearing_iff] at hclear
  have hstep : n.x = c.x ∧ (n.z = c.z - 1 ∨ n.z = c.z + 1) ∨
      n.z = c.z ∧ (n.x = c.x - 1 ∨ n.x = c.x + 1) := by
    unfold Adjacent at hn
    omega
  rw [mem_edgeCells]
  unfold reach
  rcases hstep with ⟨hnx, hnz⟩ | ⟨hnz, hnx⟩
  · have hcases := outward_cases hzo hlast hz hz'
    refine .inl ?_
    omega
  · have hcases := outward_cases hxo hlast hx hx'
    refine .inr ?_
    omega

end Edge

theorem blockAt_edgeWalls :
    blockAt (d.edgeWalls anchor) (placeOf c y) =
      if c ∈ d.edgeCells anchor ∧ y ∈ [level - 1, level, level + 1] then some .stonebrick
      else none :=
  blockAt_columns _ _

/-! ## What the whole draws -/

theorem blockAt_strokes :
    blockAt d.strokes p = (blockAt (d.edgeWalls d.finish) p).or
      ((blockAt (d.edgeWalls d.start) p).or ((blockAt (d.clearing d.finish .emerald) p).or
        ((blockAt (d.clearing d.start .grass) p).or
          ((blockAt d.walls p).or (blockAt d.ground p))))) := by
  simp only [strokes, details, blockAt_append, Option.or_assoc]

theorem blockAt_strokes_of_contains (h : d.Fitting) (hc : d.grid.contains c) :
    blockAt d.strokes (placeOf c y) =
      (blockAt (d.clearing d.finish .emerald) (placeOf c y)).or
        ((blockAt (d.clearing d.start .grass) (placeOf c y)).or
          ((blockAt d.walls (placeOf c y)).or (blockAt d.ground (placeOf c y)))) := by
  rw [blockAt_strokes, blockAt_edgeWalls, blockAt_edgeWalls,
    if_neg fun hmem => h.not_mem_edgeCells h.finish hc hmem.1,
    if_neg fun hmem => h.not_mem_edgeCells h.start hc hmem.1, Option.none_or, Option.none_or]

theorem blockAt_inside (h : d.Fitting) (hc : d.grid.contains c) (hy : y ∈ levels) :
    blockAt d.strokes (placeOf c y) = some (if d.isWall c then .stonebrick else .air) := by
  rw [h.blockAt_strokes_of_contains hc, h.blockAt_clearing h.finish hy,
    h.blockAt_clearing h.start hy, h.blockAt_walls hc, h.blockAt_ground hc hy]
  by_cases hfinish : inClearing d.finish c
  · simp [isWall, hfinish]
  · by_cases hstart : inClearing d.start c
    · simp [isWall, hfinish, hstart]
    · by_cases hwall : d.isWall c
      · simp [hy, hfinish, hstart, hwall]
      · simp [hfinish, hstart, hwall]

theorem blockAt_floor (h : d.Fitting) (hc : d.grid.contains c) :
    blockAt d.strokes (placeOf c (level - 1)) =
      some (if c = d.finish then .emerald else if c = d.start then .grass else .sandstone) := by
  have hwall : ¬ (d.isWall c ∧ level - 1 ∈ levels) := fun hwall => absurd hwall.2 (by decide)
  rw [h.blockAt_strokes_of_contains hc, h.blockAt_clearing_floor h.finish,
    h.blockAt_clearing_floor h.start, h.blockAt_walls hc, h.blockAt_ground_floor hc,
    if_neg hwall]
  by_cases hfinish : c = d.finish
  · rw [if_pos hfinish, if_pos hfinish, Option.some_or]
  · by_cases hstart : c = d.start
    · rw [if_neg hfinish, if_neg hfinish, if_pos hstart, if_pos hstart, Option.none_or,
        Option.some_or]
    · rw [if_neg hfinish, if_neg hfinish, if_neg hstart, if_neg hstart, Option.none_or,
        Option.none_or, Option.none_or]

theorem blockAt_beyond (hn : n ∈ d.edgeCells d.start ∨ n ∈ d.edgeCells d.finish)
    (hy : y ∈ levels) : blockAt d.strokes (placeOf n y) = some .stonebrick := by
  have hlevels : y ∈ [level - 1, level, level + 1] := List.mem_cons_of_mem _ hy
  rw [blockAt_strokes, blockAt_edgeWalls, blockAt_edgeWalls]
  simp only [hlevels, and_true]
  by_cases hfinish : n ∈ d.edgeCells d.finish
  · rw [if_pos hfinish, Option.some_or]
  · rw [if_neg hfinish, if_pos (hn.resolve_right hfinish), Option.none_or, Option.some_or]

end Fitting

/-! ## Sealed squares -/

/-- A cell on which something other than a wall stands at one of the two levels. What nobody has
drawn is no wall. -/
def Passable (d : Drawing) (c : Cell) : Prop :=
  ∃ y ∈ levels, blockAt d.strokes (placeOf c y) ≠ some .stonebrick

/-- The maze stands as it was carved, on a floor without holes, and nobody walks out of the square. -/
structure Sealed (d : Drawing) : Prop where
  inside : ∀ c, d.grid.contains c → ∀ y ∈ levels, blockAt d.strokes (placeOf c y) =
    some (if d.grid.isWall c ∧ ¬ inClearing d.start c ∧ ¬ inClearing d.finish c then .stonebrick
      else .air)
  floor : ∀ c, d.grid.contains c → blockAt d.strokes (placeOf c (level - 1)) =
    some (if c = d.finish then .emerald else if c = d.start then .grass else .sandstone)
  walkable : ∀ c, d.grid.isOpen c ∨ inClearing d.start c ∨ inClearing d.finish c →
    d.grid.contains c ∧ ∀ y ∈ levels, blockAt d.strokes (placeOf c y) = some .air
  spawn : ∀ r : Role, ∀ y ∈ levels,
    blockAt d.strokes (placeOf (r.spawn d.start d.finish).cell y) = some .air
  edge : ∀ c n, d.grid.contains c → d.grid.onBorder c →
    (∃ y ∈ levels, blockAt d.strokes (placeOf c y) = some .air) → c.Adjacent n →
      ¬ d.grid.contains n → ∀ y ∈ levels, blockAt d.strokes (placeOf n y) = some .stonebrick
  closed : ∀ c, Relation.ReflTransGen (fun a b => a.Adjacent b ∧ d.Passable b) d.start c →
    d.grid.contains c

namespace Fitting

theorem contains_of_inClearing (h : d.Fitting) (ha : Plot.GoodStart d.grid.size anchor)
    (hc : inClearing anchor c) : d.grid.contains c := by
  have hbounds := h.anchor_bounds ha
  rw [inClearing_iff] at hc
  rw [h.contains_iff]
  omega

theorem blockAt_behind (h : d.Fitting) (hc : d.grid.contains c) (hwall : ¬ d.isWall c)
    (hn : c.Adjacent n) (hout : ¬ d.grid.contains n) (hy : y ∈ levels) :
    blockAt d.strokes (placeOf n y) = some .stonebrick := by
  have hborder : d.grid.onBorder c := by
    rw [h.contains_iff] at hc hout
    rw [onBorder_iff]
    unfold Adjacent at hn
    omega
  have hclear : inClearing d.start c ∨ inClearing d.finish c := by
    have hopen := h.ring c hborder
    simp only [isWall, Bool.and_eq_true, Bool.not_eq_true', Bool.not_eq_true] at hwall hopen
    by_contra hno
    simp only [not_or, Bool.not_eq_true] at hno
    exact hwall ⟨⟨hopen, hno.1⟩, hno.2⟩
  refine blockAt_beyond (hclear.imp ?_ ?_) hy
  · exact fun hclear => h.mem_edgeCells_of_adjacent h.start hc hclear hn hout
  · exact fun hclear => h.mem_edgeCells_of_adjacent h.finish hc hclear hn hout

theorem contains_of_adjacent (h : d.Fitting) (hc : d.grid.contains c) (hfree : d.Passable c)
    (hn : c.Adjacent n) (hpass : d.Passable n) : d.grid.contains n := by
  by_contra hout
  obtain ⟨y, hy, hblock⟩ := hfree
  obtain ⟨z, hz, hpass⟩ := hpass
  refine hpass (h.blockAt_behind hc ?_ hn hout hz)
  intro hwall
  rw [h.blockAt_inside hc hy, if_pos hwall] at hblock
  exact hblock rfl

theorem blockAt_walkable (h : d.Fitting)
    (hc : d.grid.isOpen c ∨ inClearing d.start c ∨ inClearing d.finish c) :
    d.grid.contains c ∧ ∀ y ∈ levels, blockAt d.strokes (placeOf c y) = some .air := by
  have hin : d.grid.contains c := by
    rcases hc with hopen | hclear | hclear
    · exact Grid.contains_of_isOpen hopen
    · exact h.contains_of_inClearing h.start hclear
    · exact h.contains_of_inClearing h.finish hclear
  refine ⟨hin, fun y hy => ?_⟩
  rw [h.blockAt_inside hin hy, if_neg]
  simp only [isWall, Bool.and_eq_true, Bool.not_eq_true']
  rintro ⟨⟨hopen, hstart⟩, hfinish⟩
  simp [hopen, hstart, hfinish] at hc

theorem sealed (h : d.Fitting) : d.Sealed where
  inside c hc y hy := by
    have hwall : d.isWall c ↔
        d.grid.isWall c ∧ ¬ inClearing d.start c ∧ ¬ inClearing d.finish c := by
      rw [isWall, Bool.and_eq_true, Bool.and_eq_true, Bool.not_eq_true', Bool.not_eq_true',
        Bool.not_eq_true', and_assoc, Bool.not_eq_true, Bool.not_eq_true]
      refine and_congr_left' ⟨fun hopen => ?_, fun hwall => ?_⟩
      · exact h.wellFormed.isWall_of_not_isOpen hc (Bool.eq_false_iff.mp hopen)
      · exact Bool.eq_false_iff.mpr (Grid.not_isOpen_of_isWall hwall)
    simp only [h.blockAt_inside hc hy, hwall]
  floor c hc := h.blockAt_floor hc
  walkable c hc := h.blockAt_walkable hc
  spawn r y hy := by
    refine (h.blockAt_walkable (.inr ?_)).2 y hy
    unfold Role.spawn
    split
    · exact .inl inClearing_self
    · exact .inr inClearing_self
  edge c n hc _ hair hn hout y hy := by
    obtain ⟨z, hz, hair⟩ := hair
    refine h.blockAt_behind hc ?_ hn hout hy
    intro hwall
    rw [h.blockAt_inside hc hz, if_pos hwall] at hair
    cases hair
  closed c hwalk := by
    have hstart := h.blockAt_walkable (c := d.start) (.inr (.inl inClearing_self))
    suffices h : d.grid.contains c ∧ d.Passable c from h.1
    induction hwalk with
    | refl =>
      have hair := hstart.2 level (mem_levels.mpr (.inl rfl))
      exact ⟨hstart.1, level, mem_levels.mpr (.inl rfl), by rw [hair]; decide⟩
    | tail _ hstep ih =>
      exact ⟨h.contains_of_adjacent ih.1 ih.2 hstep.1 hstep.2, hstep.2⟩

end Fitting

end Labyrinth.Drawing

namespace Labyrinth.Plot

variable {σ : Type} {p : Plot} {size : Nat} {start a b : Cell}

theorem carve_sealed (hp : withStart size start = .ok p) (hsize : size < 2147483648)
    (ha : GoodStart size a) (hb : GoodStart size b) (chance : Chance σ) (s : σ) :
    (Drawing.mk (p.carve chance s).1 a b).Sealed := by
  obtain ⟨c, hsound, -, -, hgrid⟩ := exists_explored hp hsize chance s
  obtain ⟨hgood, -, rfl⟩ := withStart_eq_ok_iff.mp hp
  have hgridSize : c.grid.size = size := hsound.size
  rw [hgrid]
  refine Drawing.Fitting.sealed ⟨hsound.wellFormed, ?_, ?_, ?_, ?_, fun q hborder hopen => ?_⟩
  case refine_5 =>
    have hin := hsound.interior q hopen
    rw [← hsound.size] at hin
    exact ((Carving.interior_iff (hgridSize ▸ hsize)).mp hin).2 hborder
  all_goals
    simpa only [hgridSize]

/-- One anchor stands in the corner and the other one at the middle of an edge. -/
theorem carve_sealed_seven :
    withStart 7 ⟨1, 1⟩ = .ok ⟨7, ⟨1, 1⟩⟩ ∧ 7 < 2147483648 ∧ GoodStart 7 ⟨1, 1⟩ ∧
      GoodStart 7 ⟨5, 3⟩ ∧
        (Drawing.mk ((Plot.mk 7 ⟨1, 1⟩).carve (fun _ (s : Unit) => (0, s)) ()).1 ⟨1, 1⟩
          ⟨5, 3⟩).Sealed :=
  have h : withStart 7 ⟨1, 1⟩ = .ok ⟨7, ⟨1, 1⟩⟩ := rfl
  ⟨h, by decide, by decide, by decide,
    carve_sealed h (by decide) (by decide) (by decide) _ _⟩

end Labyrinth.Plot

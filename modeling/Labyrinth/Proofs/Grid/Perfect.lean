import Labyrinth.Proofs.Grid.Dig
import Labyrinth.Proofs.Grid.Walk

/-!
# Perfect mazes

In a perfect maze one path joins any two open cells. It stays perfect if it grows by a leaf, a cell
with a single open neighbor.
-/

namespace Labyrinth.Grid

variable {g : Grid} {a b c u start : Cell} {v w : List Cell}

/-- The list is a walk from `a` to `b` that comes to no cell twice. -/
def Path (g : Grid) (a b : Cell) (w : List Cell) : Prop := g.Walk a b w ∧ w.Nodup

namespace Path

theorem reverse (h : g.Path a b w) : g.Path b a w.reverse :=
  ⟨h.1.reverse, List.nodup_reverse.mpr h.2⟩

theorem eq_single (h : g.Path a a w) : w = [a] := by
  obtain ⟨hw, hnodup⟩ := h
  obtain ⟨v, rfl⟩ := hw.exists_cons
  cases v with
  | nil => rfl
  | cons x v =>
    -- The last cell would come twice.
    have hlast : a ∈ x :: v := List.mem_of_getLast? (by simpa using hw.last)
    exact absurd hlast (List.nodup_cons.mp hnodup).1

end Path

theorem Walk.exists_path (h : g.Walk a b w) : ∃ v, g.Path a b v := by
  have hpos := List.length_pos_iff.mpr h.ne_nil
  have hreach : g.Reaches a b (w.length - 1) := ⟨w, h, by omega⟩
  obtain ⟨d, -, hdist⟩ := hreach.exists_isDist
  obtain ⟨v, hv, hlen⟩ := hdist.1
  exact ⟨v, hv, (hdist.shortest hv hlen).nodup⟩

theorem Walk.of_floor {g' : Grid} (h : g.Walk a b w) (hfloor : ∀ d ∈ w, g'.isOpen d) :
    g'.Walk a b w :=
  { h with floor := hfloor }

/-! ## Perfect mazes -/

structure Perfect (g : Grid) (start : Cell) : Prop where
  reaches : ∀ c, g.isOpen c → ∃ w, g.Walk start c w
  count : g.openAdjacencyCount + 1 = g.openCount
  path : ∀ a b, g.isOpen a → g.isOpen b → ∃! w, g.Path a b w

namespace Perfect

theorem of_eq (hreach : ∀ c, g.isOpen c → ∃ w, g.Walk start c w)
    (hcount : g.openAdjacencyCount + 1 = g.openCount)
    (heq : ∀ a b v w, g.Path a b v → g.Path a b w → v = w) : g.Perfect start where
  reaches := hreach
  count := hcount
  path a b ha hb := by
    obtain ⟨v, hv⟩ := hreach a ha
    obtain ⟨w, hw⟩ := hreach b hb
    obtain ⟨p, hp⟩ := (hv.reverse.append hw).exists_path
    exact ⟨p, hp, fun q hq => heq a b q p hq hp⟩

theorem path_eq (h : g.Perfect start) (hv : g.Path a b v) (hw : g.Path a b w) : v = w :=
  (h.path a b (hv.1.floor a hv.1.first_mem) (hv.1.floor b hv.1.last_mem)).unique hv hw

end Perfect

/-! ## Growing by a leaf -/

section Leaf

variable (hg : g.WellFormed) (hc : g.isWall c) (hleaf : ∀ n, c.Adjacent n → g.isOpen n → n = u)

include hg hc

theorem isOpen_of_dig {d : Cell} (hd : (g.dig c).isOpen d) (hne : d ≠ c) : g.isOpen d :=
  ((isOpen_dig hg (isWall_iff.mp hc).1).mp hd).resolve_left hne

include hleaf

/-- A path can only end at a leaf: it would have to come and go over the same cell. -/
theorem Path.of_dig (h : (g.dig c).Path a b w) (ha : a ≠ c) (hb : b ≠ c) : g.Path a b w := by
  obtain ⟨hw, hnodup⟩ := h
  refine ⟨hw.of_floor fun d hd => isOpen_of_dig hg hc (hw.floor d hd) ?_, hnodup⟩
  rintro rfl
  obtain ⟨x, y, rfl⟩ := List.append_of_mem hd
  obtain ⟨hbefore, hafter⟩ := Walk.append_cons_iff.mp hw
  obtain ⟨q, y, rfl⟩ : ∃ q y', y = q :: y' := by
    cases y with
    | nil => exact absurd (by simpa using hafter.last) hb.symm
    | cons q y => exact ⟨q, y, rfl⟩
  obtain ⟨x, p, rfl⟩ : ∃ x' p, x = x' ++ [p] := by
    rcases List.eq_nil_or_concat x with rfl | ⟨x, p, rfl⟩
    · exact absurd (by simpa using hbefore.first) ha.symm
    · exact ⟨x, p, by simp⟩
  have hbefore : (g.dig d).Walk p d [p, d] := by
    rw [List.append_assoc] at hbefore
    exact (Walk.append_cons_iff.mp hbefore).2
  obtain ⟨-, hpopen, hpd, -⟩ := Walk.cons_cons_iff.mp hbefore
  obtain ⟨-, -, hdq, hq⟩ := Walk.cons_cons_iff.mp hafter
  obtain ⟨-, hnodup, hdisjoint⟩ := List.nodup_append.mp hnodup
  have hp : p ∈ x ++ [p] := List.mem_append_right _ List.mem_cons_self
  have hpd' : p ≠ d := hdisjoint p hp d List.mem_cons_self
  have hpq : p ≠ q := hdisjoint p hp q (List.mem_cons_of_mem _ List.mem_cons_self)
  have hqd : q ≠ d := by
    rintro rfl
    exact (List.nodup_cons.mp hnodup).1 List.mem_cons_self
  have hqopen := hq.floor q List.mem_cons_self
  have hpu := hleaf p hpd.symm (isOpen_of_dig hg hc hpopen hpd')
  have hqu := hleaf q hdq (isOpen_of_dig hg hc hqopen hqd)
  exact hpq (hpu.trans hqu.symm)

theorem Path.cons_of_dig (h : (g.dig c).Path c b w) (hb : b ≠ c) :
    ∃ v, w = c :: v ∧ g.Path u b v := by
  obtain ⟨hw, hnodup⟩ := h
  obtain ⟨v, rfl⟩ := hw.exists_cons
  cases v with
  | nil => exact absurd (by simpa using hw.last) hb.symm
  | cons y v =>
    obtain ⟨-, -, hcy, hy⟩ := Walk.cons_cons_iff.mp hw
    obtain ⟨hcv, hnodup⟩ := List.nodup_cons.mp hnodup
    have hne : y ≠ c := by
      rintro rfl
      exact hcv List.mem_cons_self
    obtain rfl := hleaf y hcy (isOpen_of_dig hg hc (hy.floor y List.mem_cons_self) hne)
    exact ⟨y :: v, rfl, .of_dig hg hc hleaf ⟨hy, hnodup⟩ hne hb⟩

theorem Perfect.path_eq_dig (h : g.Perfect start) (hv : (g.dig c).Path a b v)
    (hw : (g.dig c).Path a b w) : v = w := by
  -- Paths from the leaf go through its neighbor.
  have hfrom : ∀ {b v w}, b ≠ c → (g.dig c).Path c b v → (g.dig c).Path c b w → v = w := by
    intro b v w hb hv hw
    obtain ⟨v, rfl, hv'⟩ := Path.cons_of_dig hg hc hleaf hv hb
    obtain ⟨w, rfl, hw'⟩ := Path.cons_of_dig hg hc hleaf hw hb
    rw [h.path_eq hv' hw']
  by_cases ha : a = c <;> by_cases hb : b = c
  · subst ha hb
    rw [hv.eq_single, hw.eq_single]
  · subst ha
    exact hfrom hb hv hw
  · subst hb
    exact List.reverse_injective (hfrom ha hv.reverse hw.reverse)
  · exact h.path_eq (.of_dig hg hc hleaf hv ha hb) (.of_dig hg hc hleaf hw ha hb)

end Leaf

theorem openNeighbors_eq_single (hadj : c.Adjacent u) (hopen : g.isOpen u)
    (hleaf : ∀ n, c.Adjacent n → g.isOpen n → n = u) : g.openNeighbors c = [u] := by
  have hnodup : c.neighbors.Nodup := by
    refine List.Nodup.map (fun d e h => ?_) (by decide : Cell.directions.Nodup)
    simp only [Cell.offset, Cell.mk.injEq] at h
    exact Prod.ext (by omega) (by omega)
  refine List.perm_singleton.mp ((List.perm_ext_iff_of_nodup (hnodup.filter _) (by simp)).mpr ?_)
  intro n
  rw [List.mem_filter, Cell.mem_neighbors, List.mem_singleton]
  constructor
  · exact fun h => hleaf n h.1 h.2
  · rintro rfl
    exact ⟨hadj, hopen⟩

theorem Perfect.dig_leaf (h : g.Perfect start) (hg : g.WellFormed) (hsize : g.size < 2147483648)
    (hc : g.isWall c) (hadj : c.Adjacent u) (hopen : g.isOpen u)
    (hleaf : ∀ n, c.Adjacent n → g.isOpen n → n = u) : (g.dig c).Perfect start := by
  have hdig : ∀ d, (g.dig c).isOpen d ↔ d = c ∨ g.isOpen d := fun _ =>
    isOpen_dig hg (isWall_iff.mp hc).1
  have hwalk : ∀ {a b w}, g.Walk a b w → (g.dig c).Walk a b w := fun hw =>
    hw.of_floor fun d hd => (hdig d).mpr (.inr (hw.floor d hd))
  refine .of_eq (fun d hd => ?_) ?_ fun a b v w => h.path_eq_dig hg hc hleaf
  · rcases (hdig d).mp hd with rfl | hd
    · obtain ⟨w, hw⟩ := h.reaches u hopen
      have hback := Walk.cons ((hdig d).mpr (.inl rfl)) hadj (hwalk hw.reverse)
      exact ⟨_, hback.reverse⟩
    · obtain ⟨w, hw⟩ := h.reaches d hd
      exact ⟨w, hwalk hw⟩
  · rw [openCount_dig hc, openAdjacencyCount_dig hg hsize hc,
      openNeighbors_eq_single hadj hopen hleaf, ← h.count]
    rfl

/-! ## A single cell -/

theorem not_isOpen_filled (n : Nat) : ¬ (filled n).isOpen c := by
  simp only [isOpen_iff, filled, Array.getElem?_replicate]
  split <;> simp

theorem openCells_filled (n : Nat) : (filled n).openCells = [] :=
  List.filter_eq_nil_iff.mpr fun _ _ => not_isOpen_filled n

theorem perfect_dig_filled {n : Nat} (hsize : n < 2147483648) (hc : (filled n).contains c) :
    ((filled n).dig c).Perfect c := by
  have hg := wellFormed_filled n
  have hwall : (filled n).isWall c := hg.isWall_of_not_isOpen hc (not_isOpen_filled n)
  have hopen : ∀ d, ((filled n).dig c).isOpen d ↔ d = c := fun d => by
    rw [isOpen_dig hg hc, or_iff_left (not_isOpen_filled n)]
  have hnone : (filled n).openNeighbors c = [] :=
    List.filter_eq_nil_iff.mpr fun _ _ => not_isOpen_filled n
  have hcount : (filled n).openCount = 0 := by
    rw [openCount, filled, Array.count_replicate]
    rfl
  have hpairs : (filled n).openAdjacencyCount = 0 := by
    rw [openAdjacencyCount, openCells_filled]
    rfl
  refine .of_eq (fun d hd => ?_) ?_ fun a b v w hv hw => ?_
  · obtain rfl := (hopen d).mp hd
    exact ⟨_, .single hd⟩
  · rw [openCount_dig hwall, openAdjacencyCount_dig hg hsize hwall, hnone, hcount, hpairs]
    rfl
  · obtain rfl := (hopen a).mp (hv.1.floor a hv.1.first_mem)
    obtain rfl := (hopen b).mp (hv.1.floor b hv.1.last_mem)
    rw [hv.eq_single, hw.eq_single]

end Labyrinth.Grid

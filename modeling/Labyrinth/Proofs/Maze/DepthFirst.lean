import Labyrinth.Proofs.Maze.Rooms

/-!
# Mazes are carved depth first

The trail leads back to the start, and a room leaves it only when all rooms beside it are open. So
when the walk breaks through to a room, the open rooms beside it are still on the trail, and the way
to the new room goes over them.
-/

namespace Labyrinth

open Cell

/-! ## Cells on the way -/

namespace Grid

variable {g : Grid} {a b c u root : Cell}

/-- Every path from the root to `a` goes over `b`. -/
def OnWay (g : Grid) (root b a : Cell) : Prop := ∀ w, g.Path root a w → b ∈ w

theorem OnWay.self (g : Grid) (root a : Cell) : g.OnWay root a a := fun _ hw => hw.1.last_mem

section Leaf

variable (hg : g.WellFormed) (hc : g.isWall c) (hleaf : ∀ n, c.Adjacent n → g.isOpen n → n = u)
  (hroot : g.isOpen root)

include hg hc hleaf hroot

theorem OnWay.dig (h : g.OnWay root b a) (ha : g.isOpen a) : (g.dig c).OnWay root b a := by
  have hne : ∀ {d}, g.isOpen d → d ≠ c := by
    rintro _ hd rfl
    exact not_isOpen_of_isWall hc hd
  exact fun w hw => h w (.of_dig hg hc hleaf hw (hne hroot) (hne ha))

theorem OnWay.dig_leaf (h : g.OnWay root b u) : (g.dig c).OnWay root b c := by
  intro w hw
  have hne : root ≠ c := by
    rintro rfl
    exact not_isOpen_of_isWall hc hroot
  obtain ⟨v, hv, hpath⟩ := Path.cons_of_dig hg hc hleaf hw.reverse hne
  have hb : b ∈ w.reverse := by
    rw [hv]
    exact List.mem_cons_of_mem _ (List.mem_reverse.mp (h _ hpath.reverse))
  exact List.mem_reverse.mp hb

end Leaf

end Grid

/-! ## Rooms beside each other -/

/-- The cells are two apart along one axis. -/
def Cell.Beside (a b : Cell) : Prop :=
  (a.x - b.x).natAbs = 2 ∧ a.z = b.z ∨ a.x = b.x ∧ (a.z - b.z).natAbs = 2

theorem Cell.Beside.symm {a b : Cell} (h : a.Beside b) : b.Beside a := by
  unfold Beside at *
  omega

theorem Cell.Beside.exists_direction {a b : Cell} (h : a.Beside b) :
    ∃ d ∈ directions, b = a.offset (2 * d.1) (2 * d.2) := by
  obtain ⟨x, z⟩ := a
  obtain ⟨x', z'⟩ := b
  simp only [Beside] at h
  simp only [directions, List.mem_cons, List.not_mem_nil, or_false, offset, Cell.mk.injEq,
    exists_eq_or_imp, exists_eq_left]
  omega

namespace Carving

variable {σ : Type} {p : Plot} {c : Carving} {here door there q r : Cell} {back : List Cell}

/-! ## The invariant -/

/-- The way to a room of the trail goes over the rooms below it, and of two open rooms beside each
other one lies on the way to the other. -/
structure DepthFirst (p : Plot) (c : Carving) : Prop where
  trail : c.trail.Pairwise fun q r => c.grid.OnWay p.start r q
  rooms : ∀ q r, c.grid.isOpen q → c.grid.isOpen r → q.IsRoom → r.IsRoom → q.Beside r →
    c.grid.OnWay p.start r q ∨ c.grid.OnWay p.start q r

theorem depthFirst_ofPlot (hsize : p.size < 2147483648) (hp : Plot.GoodStart p.size p.start) :
    (ofPlot p).DepthFirst p := by
  have hopen := fun q => isOpen_ofPlot (q := q) hsize hp
  refine ⟨List.pairwise_singleton _ _, fun q r hq hr _ _ hbeside => ?_⟩
  rw [(hopen q).mp hq, (hopen r).mp hr]
  exact .inl (.self _ _ _)

/-! ## Breaking through -/

section Passage

variable (hsize : p.size < 2147483648) (h : c.Sound p)
  (hp : Passage p c.grid here door there) (hstart : c.grid.isOpen p.start)

include hsize h hp hstart

theorem Passage.onWay (hway : c.grid.OnWay p.start r q) (hq : c.grid.isOpen q) :
    ((c.grid.dig there).dig door).OnWay p.start r q := by
  have hopen : ∀ q, c.grid.isOpen q → (c.grid.dig door).isOpen q := fun q hq =>
    (hp.isOpen_dig_door h hsize).mpr (.inr hq)
  rw [Grid.dig_comm]
  exact (hway.dig h.wellFormed (hp.isWall_door h hsize) (hp.eq_here h) hstart hq)
    |>.dig (h.wellFormed.dig door) (hp.isWall_there h hsize) (hp.eq_door h hsize)
      (hopen _ hstart) (hopen _ hq)

theorem Passage.onWay_there (hway : c.grid.OnWay p.start r here) :
    ((c.grid.dig there).dig door).OnWay p.start r there := by
  have hopen : (c.grid.dig door).isOpen p.start :=
    (hp.isOpen_dig_door h hsize).mpr (.inr hstart)
  rw [Grid.dig_comm]
  exact (hway.dig_leaf h.wellFormed (hp.isWall_door h hsize) (hp.eq_here h) hstart)
    |>.dig_leaf (h.wellFormed.dig door) (hp.isWall_there h hsize) (hp.eq_door h hsize) hopen

end Passage

theorem DepthFirst.onWay_of_mem_trail (h : c.DepthFirst p) (ht : c.trail = here :: back)
    (hq : q ∈ c.trail) : c.grid.OnWay p.start q here := by
  have htrail := h.trail
  rw [ht] at htrail hq
  rcases List.mem_cons.mp hq with rfl | hq
  · exact .self _ _ _
  · exact (List.pairwise_cons.mp htrail).1 q hq

/-- An open room beside one that is still a wall has not been left for good. -/
theorem Explored.mem_trail (h : c.Explored p) (hp : Passage p c.grid here door there)
    (hq : c.grid.isOpen q) (hroom : q.IsRoom) (hbeside : q.Beside there) : q ∈ c.trail := by
  by_contra hout
  obtain ⟨d, hd, rfl⟩ := hbeside.exists_direction
  exact Grid.not_isOpen_of_isWall hp.wall (h.rooms q hq hroom hout d hd hp.interior_there)

theorem DepthFirst.breakThrough (h : c.DepthFirst p) (hsound : c.Sound p) (hexplored : c.Explored p)
    (hsize : p.size < 2147483648) (ht : c.trail = here :: back)
    (hp : Passage p c.grid here door there) :
    DepthFirst p ⟨(c.grid.dig there).dig door, there :: c.trail⟩ := by
  have hstart := hexplored.start
  have hkept := fun {q r} => hp.onWay (q := q) (r := r) hsize hsound hstart
  have hnew : ∀ q ∈ c.trail, ((c.grid.dig there).dig door).OnWay p.start q there := fun q hq =>
    hp.onWay_there hsize hsound hstart (h.onWay_of_mem_trail ht hq)
  have hopen : ∀ q, ((c.grid.dig there).dig door).isOpen q → q.IsRoom →
      q = there ∨ c.grid.isOpen q := by
    intro q hq hroom
    refine ((hp.isOpen_dig hsound hsize).mp hq).resolve_left ?_
    rintro rfl
    exact hp.not_isRoom_door hroom
  constructor
  case trail =>
    refine List.pairwise_cons.mpr ⟨hnew, h.trail.imp_of_mem fun hq _ hway => ?_⟩
    exact hkept hway (hsound.trail _ hq).1
  case rooms =>
    intro q r hq hr hqroom hrroom hbeside
    rcases hopen q hq hqroom with rfl | hqold <;> rcases hopen r hr hrroom with rfl | hrold
    · exact .inl (.self _ _ _)
    · exact .inl (hnew r (hexplored.mem_trail hp hrold hrroom hbeside.symm))
    · exact .inr (hnew q (hexplored.mem_trail hp hqold hqroom hbeside))
    · exact (h.rooms q r hqold hrold hqroom hrroom hbeside).imp (hkept · hqold) (hkept · hrold)

/-! ## Whole runs -/

theorem DepthFirst.step (h : c.DepthFirst p) (hsound : c.Sound p) (hexplored : c.Explored p)
    (hsize : p.size < 2147483648) (chance : Chance σ) (s : σ) (ht : c.trail ≠ []) :
    (c.step chance s).1.DepthFirst p := by
  obtain ⟨here, back, ht⟩ := List.exists_cons_of_ne_nil ht
  rcases step_cases chance s ht with ⟨-, hstep⟩ | ⟨d, hd, hstep⟩
  · rw [hstep]
    have htrail := h.trail
    rw [ht] at htrail
    exact ⟨htrail.of_cons, h.rooms⟩
  · rw [hstep]
    exact h.breakThrough hsound hexplored hsize ht (hsound.passage hsize ht hd)

end Carving

namespace Plot

variable {σ : Type} {p : Plot} {size : Nat} {start u v : Cell}

/-- One path leads from the start to each room of a carved maze, and of two rooms beside each other
one lies on the path to the other. -/
theorem carve_depthFirst (hp : withStart size start = .ok p) (hsize : size < 2147483648)
    (chance : Chance σ) (s : σ) (hu : Interior size u) (hu' : u.IsRoom) (hv : Interior size v)
    (hv' : v.IsRoom) (huv : u.Beside v) :
    let g := (p.carve chance s).1
    ∃ toU toV, (∀ w, g.Path start u w ↔ w = toU) ∧ (∀ w, g.Path start v w ↔ w = toV) ∧
      (v ∈ toU ∨ u ∈ toV) := by
  intro g
  obtain ⟨-, hstart, rfl⟩ := withStart_eq_ok_iff.mp hp
  obtain ⟨c, hsound, hexplored, hdepth, ht, hgrid⟩ := exists_carved (P := Carving.DepthFirst _)
    hp hsize chance s (Carving.depthFirst_ofPlot hsize hstart)
    fun c s hsound hexplored ht h => h.step hsound hexplored hsize chance s ht
  have hg : g = c.grid := hgrid
  have hopenu : c.grid.isOpen u := hexplored.isOpen_of_isRoom ht hstart hu hu'
  have hopenv : c.grid.isOpen v := hexplored.isOpen_of_isRoom ht hstart hv hv'
  obtain ⟨toU, hpathu, honlyu⟩ := hsound.perfect.path start u hexplored.start hopenu
  obtain ⟨toV, hpathv, honlyv⟩ := hsound.perfect.path start v hexplored.start hopenv
  rw [hg]
  refine ⟨toU, toV, fun w => ⟨honlyu w, ?_⟩, fun w => ⟨honlyv w, ?_⟩, ?_⟩
  · rintro rfl
    exact hpathu
  · rintro rfl
    exact hpathv
  · exact (hdepth.rooms u v hopenu hopenv hu' hv' huv).imp (· toU hpathu) (· toV hpathv)

/-- Two rooms side by side at the edge of a maze of size 7. -/
theorem carve_depthFirst_seven :
    let g := ((Plot.mk 7 ⟨3, 3⟩).carve (fun n (s : Nat) => (Fin.ofNat (n + 1) s, s + 1)) 5).1
    withStart 7 ⟨3, 3⟩ = .ok ⟨7, ⟨3, 3⟩⟩ ∧ 7 < 2147483648 ∧
      (Interior 7 ⟨1, 5⟩ ∧ Cell.IsRoom ⟨1, 5⟩) ∧ (Interior 7 ⟨3, 5⟩ ∧ Cell.IsRoom ⟨3, 5⟩) ∧
      Cell.Beside ⟨1, 5⟩ ⟨3, 5⟩ ∧
      ∃ toU toV, (∀ w, g.Path ⟨3, 3⟩ ⟨1, 5⟩ w ↔ w = toU) ∧
        (∀ w, g.Path ⟨3, 3⟩ ⟨3, 5⟩ w ↔ w = toV) ∧ (⟨3, 5⟩ ∈ toU ∨ ⟨1, 5⟩ ∈ toV) := by
  intro g
  have hp : withStart 7 ⟨3, 3⟩ = .ok ⟨7, ⟨3, 3⟩⟩ := rfl
  have hsize : 7 < 2147483648 := by decide
  have hu : Interior 7 ⟨1, 5⟩ := by decide
  have hv : Interior 7 ⟨3, 5⟩ := by decide
  have huv : Cell.Beside ⟨1, 5⟩ ⟨3, 5⟩ := .inl ⟨rfl, rfl⟩
  exact ⟨hp, hsize, ⟨hu, rfl, rfl⟩, ⟨hv, rfl, rfl⟩, huv,
    carve_depthFirst hp hsize _ 5 hu ⟨rfl, rfl⟩ hv ⟨rfl, rfl⟩ huv⟩

end Plot

end Labyrinth

import Labyrinth.Proofs.Grid.Counting
import Labyrinth.Proofs.Maze.Rooms

/-!
# The shape of a maze

All mazes of one size look alike but for where their doors are. Every room is open, and the posts
between the rooms and the outer ring are walls. Each room but the first is opened together with one
door, so there is one door less than there are rooms.
-/

namespace Labyrinth

open Cell

/-- The cell has two even coordinates. -/
def Cell.IsPost (c : Cell) : Prop := c.x % 2 = 0 ∧ c.z % 2 = 0

instance (c : Cell) : Decidable c.IsPost := inferInstanceAs (Decidable (_ ∧ _))

/-! ## Rooms of a grid -/

namespace Grid

variable {g : Grid} {c : Cell}

def openRooms (g : Grid) : Nat := g.openCells.countP (decide <| ·.IsRoom)

theorem openRooms_dig (hg : g.WellFormed) (hsize : g.size < 2147483648) (hc : g.isWall c) :
    (g.dig c).openRooms = g.openRooms + (decide c.IsRoom).toNat :=
  countP_openCells_dig hg hsize hc _

theorem openRooms_dig_of_isRoom (hg : g.WellFormed) (hsize : g.size < 2147483648)
    (hc : g.isWall c) (hroom : c.IsRoom) : (g.dig c).openRooms = g.openRooms + 1 := by
  rw [openRooms_dig hg hsize hc, decide_eq_true hroom, Bool.toNat_true]

theorem openRooms_dig_of_not_isRoom (hg : g.WellFormed) (hsize : g.size < 2147483648)
    (hc : g.isWall c) (hroom : ¬ c.IsRoom) : (g.dig c).openRooms = g.openRooms := by
  rw [openRooms_dig hg hsize hc, decide_eq_false hroom, Bool.toNat_false, Nat.add_zero]

theorem countP_odd_range (k : Nat) :
    ((List.range (2 * k + 1)).map Int.ofNat).countP (decide <| · % 2 = 1) = k := by
  induction k with
  | zero => rfl
  | succ k ih =>
    rw [show 2 * (k + 1) + 1 = 2 * k + 1 + 1 + 1 by omega, List.range_succ, List.range_succ,
      List.map_append, List.map_append, List.countP_append, List.countP_append, ih]
    have hodd : (2 * (k : Int) + 1) % 2 = 1 := by omega
    simp [hodd]

theorem countP_isRoom_cells {k : Nat} (hk : g.size = 2 * k + 1) (hsize : g.size < 2147483648) :
    g.cells.countP (decide <| ·.IsRoom) = k * k := by
  have hroom : ∀ c : Cell, decide c.IsRoom = (decide (c.x % 2 = 1) && decide (c.z % 2 = 1)) :=
    fun c => Bool.decide_and _ _
  simp only [hroom]
  rw [countP_cells (decide <| · % 2 = 1) (decide <| · % 2 = 1), span_eq hsize, hk,
    countP_odd_range]

theorem openRooms_le {k : Nat} (hk : g.size = 2 * k + 1) (hsize : g.size < 2147483648) :
    g.openRooms ≤ k * k := by
  rw [openRooms, openCells, ← countP_isRoom_cells hk hsize]
  exact List.filter_sublist.countP_le

theorem openRooms_eq {k : Nat} (hk : g.size = 2 * k + 1) (hsize : g.size < 2147483648)
    (hopen : ∀ c, g.contains c → c.IsRoom → g.isOpen c) : g.openRooms = k * k := by
  rw [openRooms, openCells, List.countP_filter, ← countP_isRoom_cells hk hsize]
  refine List.countP_congr fun c hc => ?_
  rw [Bool.and_eq_true, and_iff_left_iff_imp, decide_eq_true_eq]
  exact hopen c ((mem_cells hsize).mp hc)

end Grid

namespace Carving

variable {σ : Type} {p : Plot} {c : Carving} {here door there q : Cell}

/-! ## Rooms and doors -/

theorem isWall_start (hsize : p.size < 2147483648) (hp : Plot.GoodStart p.size p.start) :
    (Grid.filled p.size).isWall p.start :=
  (Grid.wellFormed_filled _).isWall_of_not_isOpen (contains_start hsize hp)
    (Grid.not_isOpen_filled _)

theorem openRooms_ofPlot (hsize : p.size < 2147483648) (hp : Plot.GoodStart p.size p.start) :
    (ofPlot p).grid.openRooms = 1 := by
  have hg := Grid.wellFormed_filled p.size
  have hwall := isWall_start hsize hp
  rw [ofPlot, Grid.openRooms_dig_of_isRoom hg hsize hwall hp.2, Grid.openRooms,
    Grid.openCells_filled]
  rfl

theorem Passage.openRooms_dig (hp : Passage p c.grid here door there) (hsound : c.Sound p)
    (hsize : p.size < 2147483648) :
    ((c.grid.dig there).dig door).openRooms = c.grid.openRooms + 1 := by
  have hwell := hsound.wellFormed
  have hgrid : c.grid.size < 2147483648 := hsound.size ▸ hsize
  have hdoor := hp.isWall_door hsound hsize
  have hthere := hp.isWall_there hsound hsize
  rw [Grid.dig_comm, Grid.openRooms_dig_of_isRoom (hwell.dig door) hgrid hthere hp.room,
    Grid.openRooms_dig_of_not_isRoom hwell hgrid hdoor hp.not_isRoom_door]

/-- There is one door less than there are open rooms. -/
def Balanced (c : Carving) : Prop := c.grid.openCount + 1 = 2 * c.grid.openRooms

theorem balanced_ofPlot (hsize : p.size < 2147483648) (hp : Plot.GoodStart p.size p.start) :
    (ofPlot p).Balanced := by
  have hg := Grid.wellFormed_filled p.size
  have hwall := isWall_start hsize hp
  rw [Balanced, openRooms_ofPlot hsize hp, ofPlot, Grid.openCount_dig hwall,
    ← Grid.length_openCells hg hsize, Grid.openCells_filled]
  rfl

theorem Balanced.breakThrough (h : c.Balanced) (hsound : c.Sound p) (hsize : p.size < 2147483648)
    (hp : Passage p c.grid here door there) :
    Balanced ⟨(c.grid.dig there).dig door, there :: c.trail⟩ := by
  have hdoor := hp.isWall_door hsound hsize
  have hthere := hp.isWall_there hsound hsize
  rw [Balanced, hp.openRooms_dig hsound hsize, Grid.dig_comm, Grid.openCount_dig hthere,
    Grid.openCount_dig hdoor]
  unfold Balanced at h
  omega

theorem Balanced.step (h : c.Balanced) (hsound : c.Sound p) (hsize : p.size < 2147483648)
    (chance : Chance σ) (s : σ) (ht : c.trail ≠ []) : (c.step chance s).1.Balanced := by
  obtain ⟨here, back, ht⟩ := List.exists_cons_of_ne_nil ht
  rcases step_cases chance s ht with ⟨-, hstep⟩ | ⟨d, hd, hstep⟩
  · rw [hstep]
    exact h
  · rw [hstep]
    exact h.breakThrough hsound hsize (hsound.passage hsize ht hd)

/-! ## Walls -/

theorem Sound.isWall_of_isPost (h : c.Sound p) (hq : c.grid.contains q) (hpost : q.IsPost) :
    c.grid.isWall q := by
  refine h.wellFormed.isWall_of_not_isOpen hq fun hopen => ?_
  have hodd := h.odd q hopen
  unfold IsPost at hpost
  omega

theorem Sound.isWall_of_onBorder (h : c.Sound p) (hsize : p.size < 2147483648)
    (hq : c.grid.contains q) (hborder : c.grid.onBorder q) : c.grid.isWall q := by
  refine h.wellFormed.isWall_of_not_isOpen hq fun hopen => ?_
  have hin := h.interior q hopen
  rw [← h.size] at hsize hin
  exact ((interior_iff hsize).mp hin).2 hborder

theorem Sound.openRooms_add_doors (h : c.Sound p) (hsize : p.size < 2147483648) :
    (c.grid.openRooms + c.grid.cells.countP fun q =>
      decide (Plot.Interior p.size q ∧ ¬ q.IsRoom ∧ ¬ q.IsPost) && c.grid.isOpen q) =
      c.grid.openCount := by
  have hdoors : (c.grid.cells.countP fun q =>
      decide (Plot.Interior p.size q ∧ ¬ q.IsRoom ∧ ¬ q.IsPost) && c.grid.isOpen q) =
      c.grid.openCells.countP fun q => ¬ decide q.IsRoom := by
    rw [Grid.openCells, List.countP_filter]
    refine List.countP_congr fun q _ => ?_
    simp only [Bool.and_eq_true, decide_eq_true_eq]
    refine and_congr_left fun hopen => ⟨fun hdoor => hdoor.2.1, fun hroom => ?_⟩
    refine ⟨h.interior q hopen, hroom, fun hpost => ?_⟩
    have hodd := h.odd q hopen
    unfold IsPost at hpost
    omega
  rw [hdoors, Grid.openRooms, ← List.length_eq_countP_add_countP,
    Grid.length_openCells h.wellFormed (h.size ▸ hsize)]

end Carving

namespace Plot

variable {σ : Type} {p : Plot} {size k : Nat} {start : Cell}

/-- In a maze of size `2 * k + 1` all rooms are open, all posts and the outer ring are walls, and of
the cells between two rooms one less is open than there are rooms. -/
theorem carve_shape (hp : withStart size start = .ok p) (hk : size = 2 * k + 1)
    (hsize : size < 2147483648) (chance : Chance σ) (s : σ) :
    let g := (p.carve chance s).1
    g.size = size ∧ (∀ c, g.contains c → c.IsRoom → g.isOpen c) ∧
      (∀ c, g.contains c → c.IsPost → g.isWall c) ∧
      (∀ c, g.contains c → g.onBorder c → g.isWall c) ∧
      (g.cells.countP fun c =>
        decide (Interior size c ∧ ¬ c.IsRoom ∧ ¬ c.IsPost) && g.isOpen c) = k * k - 1 ∧
      g.openCount = 2 * (k * k) - 1 := by
  intro g
  obtain ⟨-, hstart, rfl⟩ := withStart_eq_ok_iff.mp hp
  obtain ⟨c, hsound, hexplored, hbalanced, ht, hgrid⟩ := exists_carved (P := Carving.Balanced)
    hp hsize chance s (Carving.balanced_ofPlot hsize hstart)
    fun c s hsound _ ht h => h.step hsound hsize chance s ht
  have hg : g = c.grid := hgrid
  have hgsize : c.grid.size = size := hsound.size
  have hrooms : ∀ q, c.grid.contains q → q.IsRoom → c.grid.isOpen q := by
    intro q hq hroom
    refine hexplored.isOpen_of_isRoom ht hstart ?_ hroom
    rw [Grid.contains_iff, hgsize] at hq
    simp only [Interior, coordinate_of_lt hsize]
    unfold IsRoom at hroom
    omega
  have hcount : c.grid.openRooms = k * k :=
    Grid.openRooms_eq (hgsize.trans hk) (hgsize ▸ hsize) hrooms
  have hdoors := hsound.openRooms_add_doors hsize
  rw [Carving.Balanced, hcount] at hbalanced
  rw [hcount] at hdoors
  dsimp only at hdoors
  rw [hg]
  refine ⟨hgsize, hrooms, fun q => hsound.isWall_of_isPost,
    fun q => hsound.isWall_of_onBorder hsize, ?_, ?_⟩ <;> omega

/-- The nine rooms of a maze of size 7 are joined by eight doors. -/
theorem carve_shape_seven :
    let g := ((Plot.mk 7 ⟨3, 3⟩).carve (fun n (s : Nat) => (Fin.ofNat (n + 1) s, s + 1)) 5).1
    withStart 7 ⟨3, 3⟩ = .ok ⟨7, ⟨3, 3⟩⟩ ∧ 7 = 2 * 3 + 1 ∧ 7 < 2147483648 ∧
      (g.cells.countP fun c =>
        decide (Interior 7 c ∧ ¬ c.IsRoom ∧ ¬ c.IsPost) && g.isOpen c) = 8 ∧
      g.openCount = 17 := by
  intro g
  have hp : withStart 7 ⟨3, 3⟩ = .ok ⟨7, ⟨3, 3⟩⟩ := rfl
  have hsize : 7 < 2147483648 := by decide
  obtain ⟨-, -, -, -, hdoors, hopen⟩ := carve_shape (k := 3) hp rfl hsize
    (fun n (s : Nat) => (Fin.ofNat (n + 1) s, s + 1)) 5
  exact ⟨hp, rfl, hsize, hdoors, hopen⟩

end Plot

end Labyrinth

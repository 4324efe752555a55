import Labyrinth.Maze.Carving
import Labyrinth.Proofs.Grid.Perfect

/-!
# Carved mazes

Rooms are the cells with two odd coordinates. While a maze is carved, its open cells are rooms and
doors between open rooms, and every step adds a door and the room behind it as leaves.
-/

namespace Labyrinth

def Cell.IsRoom (c : Cell) : Prop := c.x % 2 = 1 ∧ c.z % 2 = 1

instance (c : Cell) : Decidable c.IsRoom := inferInstanceAs (Decidable (_ ∧ _))

namespace Carving

open Cell

variable {σ : Type} {p : Plot} {c : Carving} {here n q : Cell} {back : List Cell} {d : Int × Int}

/-! ## What a step does -/

theorem natAbs_of_mem_directions : ∀ d ∈ directions, d.1.natAbs + d.2.natAbs = 1 := by decide

theorem mem_exits :
    d ∈ exits c.grid here ↔ d ∈ directions ∧ c.grid.isWall (here.offset (2 * d.1) (2 * d.2)) ∧
      ¬ c.grid.onBorder (here.offset (2 * d.1) (2 * d.2)) := by
  simp only [exits, uncarved, List.mem_filter, Bool.and_eq_true, Bool.not_eq_true',
    Bool.not_eq_true]

theorem step_cases (chance : Chance σ) (s : σ) (ht : c.trail = here :: back) :
    exits c.grid here = [] ∧ c.step chance s = (⟨c.grid, back⟩, s) ∨
      ∃ d ∈ exits c.grid here, (c.step chance s).1 = c.breakThrough here d := by
  simp only [step, ht]
  split
  · exact .inl ⟨‹_›, rfl⟩
  · rename_i e es he
    refine .inr ⟨_, ?_, rfl⟩
    rw [he]
    exact List.getElem_mem _

theorem exists_finish {P : Carving → Prop} (chance : Chance σ)
    (hstep : ∀ c s, c.trail ≠ [] → P c → P (c.step chance s).1) {c : Carving} (s : σ) (h : P c) :
    ∃ d, P d ∧ d.trail = [] ∧ (c.finish chance s).1 = d.grid := by
  induction c, s using finish.induct chance with
  | case1 c s ht => exact ⟨c, h, ht, by rw [finish, dif_pos ht]⟩
  | case2 c s ht _ _ ih =>
    rw [finish, dif_neg ht]
    exact ih (hstep c s ht h)

/-! ## The invariant -/

/-- What holds all along the carving of a plot. -/
structure Sound (p : Plot) (c : Carving) : Prop where
  wellFormed : c.grid.WellFormed
  size : c.grid.size = p.size
  interior : ∀ q, c.grid.isOpen q → Plot.Interior p.size q
  odd : ∀ q, c.grid.isOpen q → q.x % 2 = 1 ∨ q.z % 2 = 1
  rooms : ∀ q n, c.grid.isOpen q → q.Adjacent n → n.IsRoom → c.grid.isOpen n
  trail : ∀ q ∈ c.trail, c.grid.isOpen q ∧ q.IsRoom
  perfect : c.grid.Perfect p.start

theorem interior_iff {g : Grid} (hsize : g.size < 2147483648) :
    Plot.Interior g.size q ↔ g.contains q ∧ ¬ g.onBorder q := by
  simp only [Plot.Interior, Grid.contains_iff, Grid.onBorder, coordinate_of_lt hsize,
    Bool.or_eq_true, decide_eq_true_eq]
  omega

theorem contains_start (hsize : p.size < 2147483648) (hp : Plot.GoodStart p.size p.start) :
    (Grid.filled p.size).contains p.start :=
  ((interior_iff (g := .filled p.size) hsize).mp hp.1).1

theorem isOpen_ofPlot (hsize : p.size < 2147483648) (hp : Plot.GoodStart p.size p.start) :
    (ofPlot p).grid.isOpen q ↔ q = p.start := by
  rw [ofPlot, Grid.isOpen_dig (Grid.wellFormed_filled _) (contains_start hsize hp),
    or_iff_left (Grid.not_isOpen_filled _)]

theorem sound_ofPlot (hsize : p.size < 2147483648) (hp : Plot.GoodStart p.size p.start) :
    (ofPlot p).Sound p := by
  have hopen := fun q => isOpen_ofPlot (q := q) hsize hp
  have hc := contains_start hsize hp
  obtain ⟨hin, hx, hz⟩ := hp
  constructor
  case wellFormed => exact (Grid.wellFormed_filled _).dig _
  case size => rfl
  case interior =>
    intro q hq
    rwa [(hopen q).mp hq]
  case odd =>
    intro q hq
    rw [(hopen q).mp hq]
    exact .inl hx
  case rooms =>
    intro q n hq hqn hn
    rw [(hopen q).mp hq] at hqn
    unfold Adjacent IsRoom at *
    omega
  case trail =>
    intro q hq
    obtain rfl := List.mem_singleton.mp hq
    exact ⟨(hopen _).mpr rfl, hx, hz⟩
  case perfect => exact Grid.perfect_dig_filled hsize hc

/-! ## Breaking through -/

/-- A wall that hides a room beside an open one: digging up the room and the door opens it. -/
structure Passage (p : Plot) (g : Grid) (here door there : Cell) : Prop where
  floor : g.isOpen here
  wall : g.isWall there
  room : there.IsRoom
  enters : door.Adjacent here
  leaves : there.Adjacent door
  beside : ∀ n, door.Adjacent n → n.IsRoom → n = here ∨ n = there
  interior_door : Plot.Interior p.size door
  interior_there : Plot.Interior p.size there

theorem Passage.not_isRoom_door {door there : Cell} (hp : Passage p c.grid here door there) :
    ¬ door.IsRoom := by
  have hleaves := hp.leaves
  have hroom := hp.room
  unfold Adjacent IsRoom at *
  omega

theorem room_beside_door (hd : d ∈ directions) (hhere : here.IsRoom)
    (hadj : (here.offset d.1 d.2).Adjacent n) (hn : n.IsRoom) :
    n = here ∨ n = here.offset (2 * d.1) (2 * d.2) := by
  obtain ⟨x, z⟩ := here
  obtain ⟨nx, nz⟩ := n
  simp only [directions, List.mem_cons, List.not_mem_nil, or_false] at hd
  rcases hd with rfl | rfl | rfl | rfl
  all_goals
    simp only [Adjacent, IsRoom, offset, Cell.mk.injEq] at *
    omega

theorem Sound.passage (h : c.Sound p) (hsize : p.size < 2147483648)
    (ht : c.trail = here :: back) (hd : d ∈ exits c.grid here) :
    Passage p c.grid here (here.offset d.1 d.2) (here.offset (2 * d.1) (2 * d.2)) := by
  obtain ⟨hdir, hwall, hborder⟩ := mem_exits.mp hd
  obtain ⟨hopen, hroom⟩ := h.trail here (by rw [ht]; exact List.mem_cons_self)
  have hone := natAbs_of_mem_directions d hdir
  have hin := h.interior here hopen
  have hthere : Plot.Interior p.size (here.offset (2 * d.1) (2 * d.2)) := by
    rw [← h.size] at hsize ⊢
    exact (interior_iff hsize).mpr ⟨(Grid.isWall_iff.mp hwall).1, hborder⟩
  constructor
  case floor => exact hopen
  case wall => exact hwall
  case interior_there => exact hthere
  case room =>
    simp only [IsRoom, offset] at *
    omega
  case enters =>
    simp only [Adjacent, offset]
    omega
  case leaves =>
    simp only [Adjacent, offset]
    omega
  case beside => exact fun n => room_beside_door hdir hroom
  case interior_door =>
    simp only [Plot.Interior, offset] at *
    omega

section Passage

variable {door there : Cell} (hsize : p.size < 2147483648) (h : c.Sound p)
  (hp : Passage p c.grid here door there)

include h hp

theorem Passage.contains_door (hsize : p.size < 2147483648) : c.grid.contains door := by
  have hin := hp.interior_door
  rw [← h.size] at hsize hin
  exact ((interior_iff hsize).mp hin).1

theorem Passage.isOpen_dig (hsize : p.size < 2147483648) :
    ((c.grid.dig there).dig door).isOpen q ↔ q = door ∨ q = there ∨ c.grid.isOpen q := by
  rw [Grid.isOpen_dig (h.wellFormed.dig there) (hp.contains_door h hsize),
    Grid.isOpen_dig h.wellFormed (Grid.isWall_iff.mp hp.wall).1]

theorem Passage.isWall_door (hsize : p.size < 2147483648) : c.grid.isWall door := by
  refine h.wellFormed.isWall_of_not_isOpen (hp.contains_door h hsize) fun hopen => ?_
  exact Grid.not_isOpen_of_isWall hp.wall (h.rooms door there hopen hp.leaves.symm hp.room)

theorem Passage.isOpen_dig_door (hsize : p.size < 2147483648) :
    (c.grid.dig door).isOpen q ↔ q = door ∨ c.grid.isOpen q :=
  Grid.isOpen_dig h.wellFormed (hp.contains_door h hsize)

theorem Passage.eq_here (n : Cell) (hadj : door.Adjacent n) (hn : c.grid.isOpen n) : n = here := by
  have hroom : n.IsRoom := by
    have hodd := h.odd n hn
    have hroom := hp.room
    have hleaves := hp.leaves
    unfold Adjacent IsRoom at *
    omega
  refine (hp.beside n hadj hroom).resolve_right ?_
  rintro rfl
  exact Grid.not_isOpen_of_isWall hp.wall hn

theorem Passage.isWall_there (hsize : p.size < 2147483648) :
    (c.grid.dig door).isWall there := by
  refine (h.wellFormed.dig door).isWall_of_not_isOpen (Grid.isWall_iff.mp hp.wall).1 ?_
  rw [hp.isOpen_dig_door h hsize]
  rintro (heq | hopen)
  · simpa [heq, Adjacent] using hp.leaves
  · exact Grid.not_isOpen_of_isWall hp.wall hopen

theorem Passage.eq_door (hsize : p.size < 2147483648) (n : Cell) (hadj : there.Adjacent n)
    (hn : (c.grid.dig door).isOpen n) : n = door := by
  refine ((hp.isOpen_dig_door h hsize).mp hn).resolve_right fun hn => ?_
  exact Grid.not_isOpen_of_isWall hp.wall (h.rooms n there hn hadj.symm hp.room)

theorem Passage.perfect (hsize : p.size < 2147483648) :
    ((c.grid.dig there).dig door).Perfect p.start := by
  have hgrid : c.grid.size < 2147483648 := h.size ▸ hsize
  have hdoor : (c.grid.dig door).Perfect p.start :=
    h.perfect.dig_leaf h.wellFormed hgrid (hp.isWall_door h hsize) hp.enters hp.floor
      (hp.eq_here h)
  rw [Grid.dig_comm]
  exact hdoor.dig_leaf (h.wellFormed.dig door) hgrid (hp.isWall_there h hsize) hp.leaves
    ((hp.isOpen_dig_door h hsize).mpr (.inl rfl)) (hp.eq_door h hsize)

theorem Passage.sound (hsize : p.size < 2147483648) :
    Sound p ⟨(c.grid.dig there).dig door, there :: c.trail⟩ := by
  have hopen := fun q => hp.isOpen_dig (q := q) h hsize
  have hleaves := hp.leaves
  have hroom := hp.room
  constructor
  case wellFormed => exact (h.wellFormed.dig there).dig door
  case size => exact h.size
  case interior =>
    intro q hq
    rcases (hopen q).mp hq with rfl | rfl | hq
    · exact hp.interior_door
    · exact hp.interior_there
    · exact h.interior q hq
  case odd =>
    intro q hq
    rcases (hopen q).mp hq with rfl | rfl | hq
    · unfold Adjacent IsRoom at *
      omega
    · exact .inl hroom.1
    · exact h.odd q hq
  case rooms =>
    intro q n hq hadj hn
    rw [hopen]
    rcases (hopen q).mp hq with rfl | rfl | hq
    · rcases hp.beside n hadj hn with rfl | rfl
      · exact .inr (.inr hp.floor)
      · exact .inr (.inl rfl)
    · -- Two rooms are never adjacent.
      unfold Adjacent IsRoom at *
      omega
    · exact .inr (.inr (h.rooms q n hq hadj hn))
  case trail =>
    intro q hq
    rcases List.mem_cons.mp hq with rfl | hq
    · exact ⟨(hopen _).mpr (.inr (.inl rfl)), hroom⟩
    · obtain ⟨hq, hroom⟩ := h.trail q hq
      exact ⟨(hopen _).mpr (.inr (.inr hq)), hroom⟩
  case perfect => exact hp.perfect h hsize

end Passage

/-! ## Whole runs -/

theorem Sound.step (h : c.Sound p) (hsize : p.size < 2147483648) (chance : Chance σ) (s : σ)
    (ht : c.trail ≠ []) : (c.step chance s).1.Sound p := by
  obtain ⟨here, back, ht⟩ := List.exists_cons_of_ne_nil ht
  rcases step_cases chance s ht with ⟨-, hstep⟩ | ⟨d, hd, hstep⟩
  · rw [hstep]
    have htrail := h.trail
    rw [ht] at htrail
    exact { h with trail := fun q hq => htrail q (List.mem_cons_of_mem _ hq) }
  · rw [hstep]
    exact (h.passage hsize ht hd).sound h hsize

end Carving

namespace Plot

variable {σ : Type} {p : Plot} {size : Nat} {start : Cell}

theorem withStart_eq_ok_iff :
    withStart size start = .ok p ↔ GoodSize size ∧ GoodStart size start ∧ p = ⟨size, start⟩ := by
  unfold withStart
  split
  · simp_all
  · split
    · simp_all
    · simp_all [eq_comm]

theorem carve_perfect (hp : withStart size start = .ok p) (hsize : size < 2147483648)
    (chance : Chance σ) (s : σ) : (p.carve chance s).1.Perfect start := by
  obtain ⟨-, hstart, rfl⟩ := withStart_eq_ok_iff.mp hp
  obtain ⟨c, hc, -, hgrid⟩ := Carving.exists_finish (P := Carving.Sound ⟨size, start⟩) chance
    (fun c s ht hc => hc.step hsize chance s ht) s (Carving.sound_ofPlot hsize hstart)
  rw [carve, hgrid]
  exact hc.perfect

theorem carve_perfect_five :
    withStart 5 ⟨1, 1⟩ = .ok ⟨5, ⟨1, 1⟩⟩ ∧ 5 < 2147483648 ∧
      ((Plot.mk 5 ⟨1, 1⟩).carve (fun _ (s : Unit) => (0, s)) ()).1.Perfect ⟨1, 1⟩ :=
  have h : withStart 5 ⟨1, 1⟩ = .ok ⟨5, ⟨1, 1⟩⟩ := rfl
  ⟨h, by decide, carve_perfect h (by decide) _ _⟩

end Plot

end Labyrinth

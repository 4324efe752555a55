import Labyrinth.Proofs.Maze.Carved

/-!
# The rooms of a maze

The walk leaves a room for good only when all rooms beside it are open. When the trail is used up it
has come to every room of the plot.
-/

namespace Labyrinth

open Cell

namespace Carving

variable {σ : Type} {p : Plot} {c : Carving} {here q s : Cell} {back : List Cell} {d : Int × Int}

/-! ## Explored rooms -/

/-- Beside the open rooms that are not on the trail, all rooms are open. -/
structure Explored (p : Plot) (c : Carving) : Prop where
  start : c.grid.isOpen p.start
  rooms : ∀ q, c.grid.isOpen q → q.IsRoom → q ∉ c.trail → ∀ d ∈ directions,
    Plot.Interior p.size (q.offset (2 * d.1) (2 * d.2)) →
      c.grid.isOpen (q.offset (2 * d.1) (2 * d.2))

theorem explored_ofPlot (hsize : p.size < 2147483648) (hp : Plot.GoodStart p.size p.start) :
    (ofPlot p).Explored p := by
  have hopen := fun q => isOpen_ofPlot (q := q) hsize hp
  refine ⟨(hopen _).mpr rfl, fun q hq _ hout => ?_⟩
  obtain rfl := (hopen q).mp hq
  exact absurd List.mem_cons_self hout

theorem Sound.isOpen_of_exits_eq_nil (h : c.Sound p) (hsize : p.size < 2147483648)
    (hnone : exits c.grid here = []) (hd : d ∈ directions)
    (hin : Plot.Interior p.size (here.offset (2 * d.1) (2 * d.2))) :
    c.grid.isOpen (here.offset (2 * d.1) (2 * d.2)) := by
  rw [← h.size] at hsize hin
  obtain ⟨hcontains, hborder⟩ := (interior_iff hsize).mp hin
  by_contra hclosed
  have hexit : d ∈ exits c.grid here :=
    mem_exits.mpr ⟨hd, h.wellFormed.isWall_of_not_isOpen hcontains hclosed, hborder⟩
  rw [hnone] at hexit
  cases hexit

theorem Explored.step (h : c.Explored p) (hsound : c.Sound p) (hsize : p.size < 2147483648)
    (chance : Chance σ) (s : σ) (ht : c.trail ≠ []) : (c.step chance s).1.Explored p := by
  obtain ⟨here, back, ht⟩ := List.exists_cons_of_ne_nil ht
  rcases step_cases chance s ht with ⟨hnone, hstep⟩ | ⟨e, he, hstep⟩
  · rw [hstep]
    refine ⟨h.start, fun q hq hroom hout d hd hin => ?_⟩
    by_cases hhere : q = here
    · subst hhere
      exact hsound.isOpen_of_exits_eq_nil hsize hnone hd hin
    · refine h.rooms q hq hroom ?_ d hd hin
      rw [ht]
      exact List.not_mem_cons_of_ne_of_not_mem hhere hout
  · rw [hstep]
    have hpassage := hsound.passage hsize ht he
    have hopen := fun q => hpassage.isOpen_dig (q := q) hsound hsize
    refine ⟨(hopen _).mpr (.inr (.inr h.start)), fun q hq hroom hout d hd hin => ?_⟩
    refine (hopen _).mpr (.inr (.inr ?_))
    rcases (hopen q).mp hq with rfl | rfl | hq
    · exact absurd hroom hpassage.not_isRoom_door
    · exact absurd List.mem_cons_self hout
    · exact h.rooms q hq hroom (fun hq => hout (List.mem_cons_of_mem _ hq)) d hd hin

/-! ## Every room -/

theorem exists_nearer {n : Nat} (hs : Plot.Interior n s) (hs' : s.IsRoom) (hq : Plot.Interior n q)
    (hq' : q.IsRoom) (hne : q ≠ s) :
    ∃ r, ∃ d ∈ directions, q = r.offset (2 * d.1) (2 * d.2) ∧ Plot.Interior n r ∧ r.IsRoom ∧
      (r.x - s.x).natAbs + (r.z - s.z).natAbs < (q.x - s.x).natAbs + (q.z - s.z).natAbs := by
  obtain ⟨x, z⟩ := q
  obtain ⟨sx, sz⟩ := s
  simp only [Plot.Interior, IsRoom, ne_eq, Cell.mk.injEq] at *
  rcases Int.lt_trichotomy x sx with hlt | rfl | hgt
  · refine ⟨⟨x + 2, z⟩, (-1, 0), by decide, ?_⟩
    simp only [offset, Cell.mk.injEq]
    omega
  · rcases Int.lt_trichotomy z sz with hlt | rfl | hgt
    · refine ⟨⟨x, z + 2⟩, (0, -1), by decide, ?_⟩
      simp only [offset, Cell.mk.injEq]
      omega
    · exact absurd ⟨rfl, rfl⟩ hne
    · refine ⟨⟨x, z - 2⟩, (0, 1), by decide, ?_⟩
      simp only [offset, Cell.mk.injEq]
      omega
  · refine ⟨⟨x - 2, z⟩, (1, 0), by decide, ?_⟩
    simp only [offset, Cell.mk.injEq]
    omega

theorem Explored.isOpen_of_isRoom (h : c.Explored p) (ht : c.trail = [])
    (hp : Plot.GoodStart p.size p.start) (hq : Plot.Interior p.size q) (hroom : q.IsRoom) :
    c.grid.isOpen q := by
  induction hn : (q.x - p.start.x).natAbs + (q.z - p.start.z).natAbs using Nat.strong_induction_on
    generalizing q with
  | h n ih =>
    by_cases hne : q = p.start
    · rw [hne]
      exact h.start
    · obtain ⟨r, d, hd, rfl, hr, hroom', hlt⟩ := exists_nearer hp.1 hp.2 hq hroom hne
      have hopen := ih _ (hn ▸ hlt) hr hroom' rfl
      exact h.rooms r hopen hroom' (by rw [ht]; exact List.not_mem_nil) d hd hq

end Carving

namespace Plot

variable {σ : Type} {p : Plot} {size : Nat} {start q : Cell}

theorem exists_carved {P : Carving → Prop} (hp : withStart size start = .ok p)
    (hsize : size < 2147483648) (chance : Chance σ) (s : σ) (hfirst : P (Carving.ofPlot p))
    (hstep : ∀ c s, c.Sound p → c.Explored p → c.trail ≠ [] → P c → P (c.step chance s).1) :
    ∃ c : Carving, c.Sound p ∧ c.Explored p ∧ P c ∧ c.trail = [] ∧
      (p.carve chance s).1 = c.grid := by
  obtain ⟨-, hstart, rfl⟩ := withStart_eq_ok_iff.mp hp
  obtain ⟨c, ⟨hsound, hexplored, hkept⟩, ht, hgrid⟩ := Carving.exists_finish
    (P := fun c => Carving.Sound ⟨size, start⟩ c ∧ Carving.Explored ⟨size, start⟩ c ∧ P c) chance
    (fun c s ht h => ⟨h.1.step hsize chance s ht, h.2.1.step h.1 hsize chance s ht,
      hstep c s h.1 h.2.1 ht h.2.2⟩) s
    ⟨Carving.sound_ofPlot hsize hstart, Carving.explored_ofPlot hsize hstart, hfirst⟩
  exact ⟨c, hsound, hexplored, hkept, ht, hgrid⟩

theorem exists_explored (hp : withStart size start = .ok p) (hsize : size < 2147483648)
    (chance : Chance σ) (s : σ) :
    ∃ c : Carving, c.Sound p ∧ c.Explored p ∧ c.trail = [] ∧ (p.carve chance s).1 = c.grid := by
  obtain ⟨c, hsound, hexplored, -, hdone⟩ := exists_carved (P := fun _ => True) hp hsize chance s
    trivial fun _ _ _ _ _ _ => trivial
  exact ⟨c, hsound, hexplored, hdone⟩

theorem isOpen_carve (hp : withStart size start = .ok p) (hsize : size < 2147483648)
    (chance : Chance σ) (s : σ) (hq : Interior size q) (hroom : q.IsRoom) :
    (p.carve chance s).1.isOpen q := by
  obtain ⟨c, -, hexplored, ht, hgrid⟩ := exists_explored hp hsize chance s
  obtain ⟨-, hstart, rfl⟩ := withStart_eq_ok_iff.mp hp
  rw [hgrid]
  exact hexplored.isOpen_of_isRoom ht hstart hq hroom

theorem interior_defaultEnd (start : Cell) (hgood : GoodSize size) (hsize : size < 2147483648) :
    Interior size (defaultEnd ⟨size, start⟩) ∧ (defaultEnd ⟨size, start⟩).IsRoom := by
  unfold GoodSize minSize at hgood
  simp only [Interior, defaultEnd, IsRoom, coordinate_of_lt hsize]
  omega

/-- No coordinate of a plot wraps around if its cells can be counted. -/
theorem size_lt_of_withStart (hp : withStart size start = .ok p)
    (hcells : size * size < UInt64.size) : size < 2147483648 := by
  obtain ⟨-, ⟨⟨hx, -, hlast, -⟩, -⟩, -⟩ := withStart_eq_ok_iff.mp hp
  have hlt : size < 4294967296 := by
    by_contra hle
    exact absurd hcells (Nat.not_lt.mpr (Nat.mul_le_mul (Nat.not_lt.mp hle) (Nat.not_lt.mp hle)))
  unfold coordinate wrap at hlast
  omega

theorem exists_walk_defaultEnd (hp : withStart size start = .ok p) (hsize : size < 2147483648)
    (chance : Chance σ) (s : σ) : ∃ w, (p.carve chance s).1.Walk p.start p.defaultEnd w := by
  obtain ⟨hgood, -, rfl⟩ := withStart_eq_ok_iff.mp hp
  obtain ⟨hin, hroom⟩ := interior_defaultEnd start hgood hsize
  have hopen := isOpen_carve hp hsize chance s hin hroom
  obtain ⟨c, hsound, -, -, hgrid⟩ := exists_explored hp hsize chance s
  rw [hgrid] at hopen ⊢
  exact hsound.perfect.reaches _ hopen

end Plot

end Labyrinth

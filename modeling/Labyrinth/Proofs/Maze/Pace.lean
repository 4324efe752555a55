import Labyrinth.Proofs.Maze.Shape

/-!
# How long carving takes

Every step of the carving goes on to a new room or goes one room back, so that each room is entered
once and left once. The rooms that were entered are the open ones, and those that were not left yet
are on the trail. When the trail is used up all rooms are open, and so the steps can be counted.
-/

namespace Labyrinth

open Cell

namespace Carving

variable {σ : Type} {p : Plot} {c : Carving} {here : Cell} {back : List Cell} {r r' : Carving × σ}
  {pushed popped k n : ℕ}

/-! ## Steps that go on and steps that go back -/

/-- The maze and the state of chance after some steps. -/
def after (chance : Chance σ) (n : ℕ) (r : Carving × σ) : Carving × σ :=
  (fun r => r.1.step chance r.2)^[n] r

/-- There is a trail, and an exit from the room at its end. -/
def goesOn (c : Carving) : Bool :=
  match c.trail with
  | [] => false
  | here :: _ => !(exits c.grid here).isEmpty

/-- There is a trail, and no exit from the room at its end. -/
def goesBack (c : Carving) : Bool :=
  match c.trail with
  | [] => false
  | here :: _ => (exits c.grid here).isEmpty

/-- One of the exits is chosen, and a door and the room behind it are dug up, which both lie in the
grid. -/
def Advances (chance : Chance σ) (r r' : Carving × σ) : Prop :=
  ∃ here back d ds, r.1.trail = here :: back ∧ exits r.1.grid here = d :: ds ∧
    let e := (d :: ds)[(chance ds.length r.2).1]
    r.1.grid.contains (here.offset e.1 e.2) ∧
      r.1.grid.contains (here.offset (2 * e.1) (2 * e.2)) ∧
      r' = (r.1.breakThrough here e, (chance ds.length r.2).2)

/-- Nothing is chosen and nothing is dug up. -/
def Retreats (r r' : Carving × σ) : Prop :=
  ∃ here back, r.1.trail = here :: back ∧ exits r.1.grid here = [] ∧
    r' = (⟨r.1.grid, back⟩, r.2)

theorem after_succ (chance : Chance σ) (n : ℕ) (r : Carving × σ) :
    after chance (n + 1) r = (after chance n r).1.step chance (after chance n r).2 :=
  Function.iterate_succ_apply' ..

theorem after_step (chance : Chance σ) (n : ℕ) (r : Carving × σ) :
    after chance n (r.1.step chance r.2) = after chance (n + 1) r :=
  (Function.iterate_succ_apply ..).symm

theorem step_of_trail_eq_nil (chance : Chance σ) (s : σ) (ht : c.trail = []) :
    c.step chance s = (c, s) := by
  simp [step, ht]

theorem step_of_exits_eq_nil (chance : Chance σ) (s : σ) (ht : c.trail = here :: back)
    (he : exits c.grid here = []) : c.step chance s = (⟨c.grid, back⟩, s) := by
  simp [step, ht, he]

theorem step_of_exits_eq_cons {d : ℤ × ℤ} {ds : List (ℤ × ℤ)} (chance : Chance σ) (s : σ)
    (ht : c.trail = here :: back) (he : exits c.grid here = d :: ds) :
    c.step chance s =
      (c.breakThrough here (d :: ds)[(chance ds.length s).1], (chance ds.length s).2) := by
  rw [step, ht]
  dsimp only
  rw [he]

theorem goesBack_eq_not_goesOn (ht : c.trail ≠ []) : c.goesBack = !c.goesOn := by
  obtain ⟨here, back, ht⟩ := List.exists_cons_of_ne_nil ht
  simp [goesOn, goesBack, ht]

theorem retreats_step (chance : Chance σ) (h : r.1.goesBack) :
    Retreats r (r.1.step chance r.2) := by
  unfold goesBack at h
  split at h
  · cases h
  · rename_i here back ht
    have hnone : exits r.1.grid here = [] := by simpa using h
    exact ⟨here, back, ht, hnone, step_of_exits_eq_nil chance r.2 ht hnone⟩

theorem Sound.advances_step (hsound : r.1.Sound p) (hsize : p.size < 2147483648)
    (chance : Chance σ) (h : r.1.goesOn) : Advances chance r (r.1.step chance r.2) := by
  unfold goesOn at h
  split at h
  · cases h
  · rename_i here back ht
    obtain ⟨d, ds, he⟩ := List.exists_cons_of_ne_nil (l := exits r.1.grid here) (by simpa using h)
    have hchosen : (d :: ds)[(chance ds.length r.2).1] ∈ exits r.1.grid here := by
      rw [he]
      exact List.getElem_mem _
    have hpassage := hsound.passage hsize ht hchosen
    exact ⟨here, back, d, ds, ht, he, hpassage.contains_door hsound hsize,
      (Grid.isWall_iff.mp hpassage.wall).1, step_of_exits_eq_cons chance r.2 ht he⟩

/-! ## Rooms that were entered and rooms that were left -/

/-- So many rooms were entered, the start not counted, and so many were left for good. -/
structure Counted (c : Carving) (pushed popped : ℕ) : Prop where
  rooms : c.grid.openRooms = pushed + 1
  trail : c.trail.length + popped = pushed + 1
  nodup : c.trail.Nodup

theorem counted_ofPlot (hsize : p.size < 2147483648) (hp : Plot.GoodStart p.size p.start) :
    (ofPlot p).Counted 0 0 :=
  ⟨openRooms_ofPlot hsize hp, rfl, List.nodup_singleton _⟩

theorem Counted.advance {door there : Cell} (h : c.Counted pushed popped) (hsound : c.Sound p)
    (hsize : p.size < 2147483648) (hp : Passage p c.grid here door there) :
    Counted ⟨(c.grid.dig there).dig door, there :: c.trail⟩ (pushed + 1) popped := by
  obtain ⟨hrooms, htrail, hnodup⟩ := h
  -- The new room was a wall so far, unlike all the rooms on the trail.
  have hnew : there ∉ c.trail := fun hold =>
    Grid.not_isOpen_of_isWall hp.wall (hsound.trail _ hold).1
  refine ⟨?_, ?_, List.nodup_cons.mpr ⟨hnew, hnodup⟩⟩
  · rw [hp.openRooms_dig hsound hsize, hrooms]
  · rw [List.length_cons]
    omega

theorem Counted.retreat (h : c.Counted pushed popped) (ht : c.trail = here :: back) :
    Counted ⟨c.grid, back⟩ pushed (popped + 1) := by
  obtain ⟨hrooms, htrail, hnodup⟩ := h
  rw [ht] at htrail hnodup
  rw [List.length_cons] at htrail
  refine ⟨hrooms, ?_, hnodup.of_cons⟩
  dsimp only
  omega

theorem Counted.step (h : c.Counted pushed popped) (hsound : c.Sound p)
    (hsize : p.size < 2147483648) (chance : Chance σ) (s : σ) :
    (c.step chance s).1.Counted (pushed + c.goesOn.toNat) (popped + c.goesBack.toNat) := by
  cases ht : c.trail with
  | nil =>
    rw [step_of_trail_eq_nil chance s ht]
    simpa [goesOn, goesBack, ht] using h
  | cons here back =>
    rcases step_cases chance s ht with ⟨he, hstep⟩ | ⟨d, hd, hstep⟩
    · rw [hstep]
      simpa [goesOn, goesBack, ht, he] using h.retreat ht
    · have hsome : (exits c.grid here).isEmpty = false :=
        List.isEmpty_eq_false_iff.mpr (List.ne_nil_of_mem hd)
      rw [hstep]
      simpa [goesOn, goesBack, ht, hsome, breakThrough] using
        h.advance hsound hsize (hsound.passage hsize ht hd)

theorem Counted.length_trail_le (h : c.Counted pushed popped) (hk : c.grid.size = 2 * k + 1)
    (hsize : c.grid.size < 2147483648) : c.trail.length ≤ k * k := by
  obtain ⟨hrooms, htrail, -⟩ := h
  have hle := Grid.openRooms_le hk hsize
  omega

theorem Counted.totals (h : c.Counted pushed popped) (ht : c.trail = [])
    (hall : c.grid.openRooms = k * k) : pushed + 1 = k * k ∧ popped = k * k := by
  obtain ⟨hrooms, htrail, -⟩ := h
  rw [ht, List.length_nil] at htrail
  omega

/-! ## Whole runs -/

/-- How many of the first steps are taken where a test holds. -/
def stepsWhere (chance : Chance σ) (q : Carving → Bool) (r : Carving × σ) (n : ℕ) : ℕ :=
  (List.range n).countP fun i => q (after chance i r).1

theorem stepsWhere_succ (chance : Chance σ) (q : Carving → Bool) (r : Carving × σ) (n : ℕ) :
    stepsWhere chance q r (n + 1) =
      stepsWhere chance q r n + (q (after chance n r).1).toNat := by
  unfold stepsWhere
  rw [List.range_succ, List.countP_append]
  cases h : q (after chance n r).1 <;> simp [h]

theorem stepsWhere_goesOn_add_goesBack (chance : Chance σ) (r : Carving × σ)
    (h : ∀ m < n, (after chance m r).1.trail ≠ []) :
    stepsWhere chance goesOn r n + stepsWhere chance goesBack r n = n := by
  induction n with
  | zero => rfl
  | succ n ih =>
    have hn := ih fun m hm => h m (Nat.lt_succ_of_lt hm)
    rw [stepsWhere_succ, stepsWhere_succ, goesBack_eq_not_goesOn (h n (Nat.lt_succ_self n))]
    cases (after chance n r).1.goesOn <;> simp <;> omega

theorem after_induct {P : Carving → Prop} (chance : Chance σ)
    (hstep : ∀ c s, c.trail ≠ [] → P c → P (c.step chance s).1) (h : P r.1) (n : ℕ) :
    P (after chance n r).1 := by
  induction n with
  | zero => exact h
  | succ n ih =>
    rw [after_succ]
    by_cases ht : (after chance n r).1.trail = []
    · rw [step_of_trail_eq_nil chance _ ht]
      exact ih
    · exact hstep _ _ ht ih

theorem after_of_le (chance : Chance σ) {m : ℕ} (ht : (after chance n r).1.trail = [])
    (hle : n ≤ m) : after chance m r = after chance n r := by
  induction m, hle using Nat.le_induction with
  | base => rfl
  | succ m _ ih => rw [after_succ, ih, step_of_trail_eq_nil chance _ ht]

theorem exists_after_eq_finish (chance : Chance σ) (r : Carving × σ) :
    ∃ n, (∀ m < n, (after chance m r).1.trail ≠ []) ∧ (after chance n r).1.trail = [] ∧
      r.1.finish chance r.2 = ((after chance n r).1.grid, (after chance n r).2) := by
  obtain ⟨c, s⟩ := r
  induction c, s using finish.induct chance with
  | case1 c s ht => exact ⟨0, by simp, ht, by rw [finish, dif_pos ht]; rfl⟩
  | case2 c s ht _ _ ih =>
    -- The loop takes its first step and goes on from there, with all moments one step later.
    obtain ⟨n, hbefore, hdone, hfinish⟩ := ih
    refine ⟨n + 1, fun m hm => ?_, ?_, ?_⟩
    · cases m with
      | zero => exact ht
      | succ m =>
        rw [← after_step chance m (c, s)]
        exact hbefore m (Nat.lt_of_succ_lt_succ hm)
    · rw [← after_step chance n (c, s)]
      exact hdone
    · rw [← after_step chance n (c, s), finish, dif_neg ht]
      exact hfinish

theorem sound_after (hsize : p.size < 2147483648) (hp : Plot.GoodStart p.size p.start)
    (chance : Chance σ) (s : σ) (n : ℕ) : (after chance n (ofPlot p, s)).1.Sound p :=
  after_induct chance (fun _ s ht h => h.step hsize chance s ht) (sound_ofPlot hsize hp) n

theorem counted_after (hsize : p.size < 2147483648) (hp : Plot.GoodStart p.size p.start)
    (chance : Chance σ) (s : σ) (n : ℕ) :
    (after chance n (ofPlot p, s)).1.Counted (stepsWhere chance goesOn (ofPlot p, s) n)
      (stepsWhere chance goesBack (ofPlot p, s) n) := by
  induction n with
  | zero => exact counted_ofPlot hsize hp
  | succ n ih =>
    rw [after_succ, stepsWhere_succ, stepsWhere_succ]
    exact ih.step (sound_after hsize hp chance s n) hsize chance _

end Carving

namespace Plot

variable {σ : Type} {p : Plot} {size k : ℕ} {start : Cell}

theorem interior_of_isRoom {g : Grid} {q : Cell} (hk : g.size = 2 * k + 1)
    (hsize : g.size < 2147483648) (hq : g.contains q) (hroom : q.IsRoom) : Interior g.size q := by
  rw [Grid.contains_iff] at hq
  simp only [Interior, coordinate_of_lt hsize]
  unfold IsRoom at hroom
  omega

theorem openRooms_carve (hp : withStart size start = .ok p) (hk : size = 2 * k + 1)
    (hsize : size < 2147483648) (chance : Chance σ) (s : σ) :
    (p.carve chance s).1.openRooms = k * k := by
  have hg : (p.carve chance s).1.size = size := by
    obtain ⟨c, hsound, -, -, hgrid⟩ := exists_explored hp hsize chance s
    obtain ⟨-, -, rfl⟩ := withStart_eq_ok_iff.mp hp
    rw [hgrid]
    exact hsound.size
  refine Grid.openRooms_eq (hg.trans hk) (hg ▸ hsize) fun q hq hroom => ?_
  have hin := interior_of_isRoom (hg.trans hk) (hg ▸ hsize) hq hroom
  exact isOpen_carve hp hsize chance s (hg ▸ hin) hroom

/-- There are `k * k` rooms. Carving goes on to each of them but the first and goes back from each
of them, and these are all the steps there are. -/
theorem carve_steps (hp : withStart size start = .ok p) (hk : size = 2 * k + 1)
    (hsize : size < 2147483648) (chance : Chance σ) (s : σ) :
    let r := (Carving.ofPlot p, s)
    let steps := 2 * (k * k) - 1
    (∀ m < steps, (Carving.after chance m r).1.trail ≠ []) ∧
      (Carving.after chance steps r).1.trail = [] ∧
      p.carve chance s =
        ((Carving.after chance steps r).1.grid, (Carving.after chance steps r).2) ∧
      Carving.stepsWhere chance Carving.goesOn r steps + 1 = k * k ∧
      Carving.stepsWhere chance Carving.goesBack r steps = k * k := by
  intro r steps
  have hrooms := openRooms_carve hp hk hsize chance s
  obtain ⟨-, hstart, rfl⟩ := withStart_eq_ok_iff.mp hp
  obtain ⟨n, hbefore, hdone, hfinish⟩ := Carving.exists_after_eq_finish chance r
  have hcarve : carve ⟨size, start⟩ chance s =
      ((Carving.after chance n r).1.grid, (Carving.after chance n r).2) := hfinish
  rw [hcarve] at hrooms
  have hcounted := Carving.counted_after (p := ⟨size, start⟩) hsize hstart chance s n
  obtain ⟨hadvances, hretreats⟩ : Carving.stepsWhere chance Carving.goesOn r n + 1 = k * k ∧
    Carving.stepsWhere chance Carving.goesBack r n = k * k := hcounted.totals hdone hrooms
  have hsum := Carving.stepsWhere_goesOn_add_goesBack chance r hbefore
  obtain rfl : n = steps := by omega
  exact ⟨hbefore, hdone, hcarve, hadvances, hretreats⟩

/-- In a maze of size `2 * k + 1` the carving is done after `2 * k * k - 1` steps and not before. It
goes on `k * k - 1` times, each time by one choice among the exits that there are, and goes back
`k * k` times. The trail holds no room twice, and nothing is dug up outside the grid. -/
theorem carve_paced (hp : withStart size start = .ok p) (hk : size = 2 * k + 1)
    (hsize : size < 2147483648) (chance : Chance σ) (s : σ) :
    let r := fun n => Carving.after chance n (Carving.ofPlot p, s)
    let steps := 2 * (k * k) - 1
    (∀ n, (r n).1.trail = [] ↔ steps ≤ n) ∧
      p.carve chance s = ((r steps).1.grid, (r steps).2) ∧
      Carving.stepsWhere chance Carving.goesOn (r 0) steps = k * k - 1 ∧
      Carving.stepsWhere chance Carving.goesBack (r 0) steps = k * k ∧
      (∀ n, (r n).1.goesOn → Carving.Advances chance (r n) (r (n + 1))) ∧
      (∀ n, (r n).1.goesBack → Carving.Retreats (r n) (r (n + 1))) ∧
      (∀ n, (r n).1.trail.length ≤ k * k ∧ (r n).1.trail.Nodup) ∧
      (Grid.filled size).contains start := by
  intro r steps
  obtain ⟨hbefore, hdone, hcarve, hadvances, hretreats⟩ := carve_steps hp hk hsize chance s
  obtain ⟨-, hstart, rfl⟩ := withStart_eq_ok_iff.mp hp
  have hsound : ∀ n, (r n).1.Sound ⟨size, start⟩ :=
    Carving.sound_after (p := ⟨size, start⟩) hsize hstart chance s
  have hcounted : ∀ n, (r n).1.Counted (Carving.stepsWhere chance Carving.goesOn (r 0) n)
      (Carving.stepsWhere chance Carving.goesBack (r 0) n) :=
    Carving.counted_after (p := ⟨size, start⟩) hsize hstart chance s
  refine ⟨fun n => ⟨fun ht => ?_, fun hle => ?_⟩, hcarve, Nat.eq_sub_of_add_eq hadvances,
    hretreats, fun n hon => ?_, fun n hback => ?_, fun n => ⟨?_, (hcounted n).nodup⟩, ?_⟩
  · by_contra hlt
    exact hbefore n (Nat.lt_of_not_le hlt) ht
  · rw [show r n = r steps from Carving.after_of_le chance hdone hle]
    exact hdone
  · rw [show r (n + 1) = _ from Carving.after_succ chance n _]
    exact (hsound n).advances_step hsize chance hon
  · rw [show r (n + 1) = _ from Carving.after_succ chance n _]
    exact Carving.retreats_step chance hback
  · have hgrid : (r n).1.grid.size = size := (hsound n).size
    exact (hcounted n).length_trail_le (hgrid.trans hk) (hgrid ▸ hsize)
  · exact Carving.contains_start (p := ⟨size, start⟩) hsize hstart

/-- A maze of size 7 takes 17 steps, of which nine go back. -/
theorem carve_paced_seven :
    let chance : Chance ℕ := fun n s => (Fin.ofNat (n + 1) s, s + 1)
    let r := fun n => Carving.after chance n (Carving.ofPlot ⟨7, ⟨3, 3⟩⟩, 5)
    withStart 7 ⟨3, 3⟩ = .ok ⟨7, ⟨3, 3⟩⟩ ∧ 7 = 2 * 3 + 1 ∧ 7 < 2147483648 ∧
      (∀ n, (r n).1.trail = [] ↔ 17 ≤ n) ∧ Carving.stepsWhere chance Carving.goesOn (r 0) 17 = 8 ∧
      Carving.stepsWhere chance Carving.goesBack (r 0) 17 = 9 := by
  intro chance r
  have hp : withStart 7 ⟨3, 3⟩ = .ok ⟨7, ⟨3, 3⟩⟩ := rfl
  have hsize : 7 < 2147483648 := by decide
  obtain ⟨hdone, -, hadvances, hretreats, -⟩ := carve_paced (k := 3) hp rfl hsize chance 5
  exact ⟨hp, rfl, hsize, hdone, hadvances, hretreats⟩

end Plot

end Labyrinth

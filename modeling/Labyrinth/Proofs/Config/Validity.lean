import Labyrinth.Config.Basic
import Labyrinth.Proofs.Maze.Carved

/-!
# Valid configurations

What validation grants, and what it does not: it judges the size of the maze as a number, while the
plot compares its start with the size as a coordinate, which has 32 bits.
-/

namespace Labyrinth

/-! ## Sizes that wrap around -/

/-- The coordinate of a count lies beyond two if the low half of the count is positive as a signed
number and no smaller than three. -/
theorem two_lt_coordinate_iff {n : Nat} :
    2 < coordinate n ↔ 2 < n % 4294967296 ∧ n % 4294967296 < 2147483648 := by
  unfold coordinate wrap
  omega

theorem coordinate_of_two_lt {n : Nat} (h : 2 < coordinate n) :
    coordinate n = (n % 4294967296 : Nat) := by
  have hn := two_lt_coordinate_iff.mp h
  unfold coordinate wrap
  omega

namespace Plot

variable {size : Nat} {p : Plot}

theorem goodStart_one_one_iff : GoodStart size ⟨1, 1⟩ ↔ 2 < coordinate size := by
  simp only [GoodStart, Interior]
  omega

theorem ofSize_eq_ok_iff :
    ofSize size = .ok p ↔ GoodSize size ∧ 2 < coordinate size ∧ p = ⟨size, ⟨1, 1⟩⟩ := by
  unfold ofSize
  rw [withStart_eq_ok_iff, goodStart_one_one_iff]

theorem eq_of_ofSize_eq_error (hgood : GoodSize size) {e : PlotError}
    (h : ofSize size = .error e) : e = .start ⟨1, 1⟩ size := by
  unfold ofSize withStart at h
  rw [if_neg (not_not_intro hgood)] at h
  split at h
  · exact (Except.error.inj h).symm
  · cases h

end Plot

namespace Config

variable {c : Config}

/-! ## What validation grants -/

theorem fault?_eq_none_iff :
    c.fault? = none ↔ c.roles ≠ 0 ∧ c.endpoints ≠ [] ∧ Plot.GoodSize c.mazeSize ∧
      (∀ i ∈ c.intervals, i.2 ≠ 0) ∧ ∀ n ∈ c.navigatingRoles, n < c.roles := by
  unfold fault?
  by_cases hroles : c.roles = 0
  · simp [hroles]
  · by_cases hendpoints : c.endpoints = []
    · simp [hroles, hendpoints]
    · by_cases hsize : Plot.GoodSize c.mazeSize
      · cases hinterval : c.intervals.find? (·.2 == 0) with
        | none =>
          have hpositive : ∀ i ∈ c.intervals, i.2 ≠ 0 := by simpa using hinterval
          simpa [hroles, hendpoints, hsize] using fun _ => hpositive
        | some i =>
          have hzero := List.find?_some hinterval
          have hmem := List.mem_of_find?_eq_some hinterval
          simp only [hroles, hendpoints, hsize, if_false, not_true_eq_false, reduceCtorEq,
            false_iff, not_and]
          intro _ _ _ hpositive
          exact absurd (beq_iff_eq.mp hzero) (hpositive i hmem)
      · simp [hroles, hendpoints, hsize]

theorem validate_eq_ok_iff : c.validate = .ok () ↔ c.fault? = none := by
  unfold validate
  split <;> simp_all

theorem goodSize_of_validate (hvalid : c.validate = .ok ()) : Plot.GoodSize c.mazeSize :=
  (fault?_eq_none_iff.mp (validate_eq_ok_iff.mp hvalid)).2.2.1

/-! ## The plot of a valid configuration -/

theorem plot_eq_ok_iff {p : Plot} : c.plot = .ok p ↔ Plot.ofSize c.mazeSize = .ok p := by
  unfold plot
  split <;> simp_all

theorem plot_eq_error_iff {e : MissionError} :
    c.plot = .error e ↔ ∃ cause, Plot.ofSize c.mazeSize = .error cause ∧ e = .maze cause := by
  unfold plot
  cases h : Plot.ofSize c.mazeSize with
  | ok p => simp
  | error cause => simp [eq_comm]

/-- A valid configuration has a plot, with its default end in the opposite corner, as long as its
size fits in a coordinate. A larger size counts by its low 32 bits: if they are too small for a
start, or have the sign bit set, there is no plot, and otherwise the end is where they say. -/
theorem plot_of_valid (hvalid : c.validate = .ok ()) :
    (c.mazeSize < 2147483648 → ∃ p, c.plot = .ok p ∧ p.size = c.mazeSize ∧
      p.defaultEnd = ⟨c.mazeSize - 2, c.mazeSize - 2⟩) ∧
    ((∃ p, c.plot = .ok p) ↔
      2 < c.mazeSize % 4294967296 ∧ c.mazeSize % 4294967296 < 2147483648) ∧
    (∀ p, c.plot = .ok p → p.defaultEnd =
      ⟨(c.mazeSize % 4294967296 : Nat) - 2, (c.mazeSize % 4294967296 : Nat) - 2⟩) ∧
    ∀ e, c.plot = .error e → e = .maze (.start ⟨1, 1⟩ c.mazeSize) := by
  have hgood := goodSize_of_validate hvalid
  have hplot : ∀ p, c.plot = .ok p ↔ 2 < coordinate c.mazeSize ∧ p = ⟨c.mazeSize, ⟨1, 1⟩⟩ := by
    intro p
    rw [plot_eq_ok_iff, Plot.ofSize_eq_ok_iff, and_iff_right hgood]
  refine ⟨fun hsize => ?_, ?_, fun p hp => ?_, fun e he => ?_⟩
  · have hwide : 2 < coordinate c.mazeSize := by
      rw [coordinate_of_lt hsize]
      unfold Plot.GoodSize Plot.minSize at hgood
      omega
    refine ⟨_, (hplot _).mpr ⟨hwide, rfl⟩, rfl, ?_⟩
    simp only [Plot.defaultEnd, coordinate_of_lt hsize]
  · rw [← two_lt_coordinate_iff]
    constructor
    · intro ⟨p, hp⟩
      exact ((hplot p).mp hp).1
    · intro hwide
      exact ⟨_, (hplot _).mpr ⟨hwide, rfl⟩⟩
  · obtain ⟨hwide, rfl⟩ := (hplot p).mp hp
    simp only [Plot.defaultEnd, coordinate_of_two_lt hwide]
  · obtain ⟨cause, hcause, rfl⟩ := plot_eq_error_iff.mp he
    rw [Plot.eq_of_ofSize_eq_error hgood hcause]

/-- The standard configuration with a size whose low 32 bits are five. -/
def wrapping : Config := { standard with mazeSize := 4294967301 }

theorem plot_of_valid_wrapping :
    wrapping.validate = .ok () ∧
      ∃ p, wrapping.plot = .ok p ∧ p.size = 4294967301 ∧ p.defaultEnd = ⟨3, 3⟩ := by
  have hvalid : wrapping.validate = .ok () := rfl
  obtain ⟨-, hbuilds, hend, -⟩ := plot_of_valid hvalid
  obtain ⟨p, hp⟩ := hbuilds.mpr (by decide)
  obtain ⟨-, -, rfl⟩ := Plot.ofSize_eq_ok_iff.mp (plot_eq_ok_iff.mp hp)
  exact ⟨hvalid, _, hp, rfl, hend _ hp⟩

/-- A size with the sign bit set passes validation and has no plot. -/
theorem not_plot_of_valid : ¬ ∀ c : Config, c.mazeSize < 18446744073709551616 →
    c.validate = .ok () →
      ∃ p, c.plot = .ok p ∧ p.defaultEnd = ⟨c.mazeSize - 2, c.mazeSize - 2⟩ := by
  intro h
  obtain ⟨p, hp, -⟩ := h { standard with mazeSize := 2147483649 } (by decide) rfl
  cases hp

end Config

end Labyrinth

import Labyrinth.Error
import Labyrinth.Proofs.Plan.Replay
import Labyrinth.Scene.Spawn

/-!
# Broken paths

A path has a plan unless it steps between cells that are not adjacent. Otherwise its first such step
is what planning fails at, whatever the agent's heading, and a role fails at the first such step of
the route that it walks itself.
-/

namespace Labyrinth.Plan

variable {path : List Cell} {a c x : Cell} {b b' : BrokenStep} {i n : Nat} {p : Pose}

/-! ## Breaks of a path -/

/-- The path goes from `a` to its cell `c` of the given index, and the two are not adjacent. -/
def BrokenAt (path : List Cell) (i : Nat) (a c : Cell) : Prop :=
  1 ≤ i ∧ path[i - 1]? = some a ∧ path[i]? = some c ∧ ¬ a.Adjacent c

/-- No step before this one is broken. -/
structure FirstBreak (path : List Cell) (b : BrokenStep) : Prop where
  broken : BrokenAt path b.index b.before b.after
  least : ∀ i < b.index, ∀ a c, ¬ BrokenAt path i a c

theorem not_brokenAt_zero : ¬ BrokenAt path 0 a c := by
  unfold BrokenAt
  omega

theorem not_brokenAt_single : ¬ BrokenAt [x] i a c := by
  rintro ⟨hi, -, hc, -⟩
  have hnone : [x][i]? = none := List.getElem?_eq_none hi
  simp [hnone] at hc

theorem brokenAt_one {y : Cell} :
    BrokenAt (x :: y :: path) 1 a c ↔ x = a ∧ y = c ∧ ¬ a.Adjacent c := by
  simp [BrokenAt]

theorem brokenAt_cons : BrokenAt (x :: path) (i + 2) a c ↔ BrokenAt path (i + 1) a c := by
  simp [BrokenAt]

theorem FirstBreak.unique (h : FirstBreak path b) (h' : FirstBreak path b') : b = b' := by
  obtain ⟨i, a, c⟩ := b
  obtain ⟨i', a', c'⟩ := b'
  have hle : i ≤ i' := by
    by_contra hlt
    exact h.least i' (by simpa using hlt) a' c' h'.broken
  have hge : i' ≤ i := by
    by_contra hlt
    exact h'.least i (by simpa using hlt) a c h.broken
  obtain rfl : i = i' := by omega
  obtain ⟨-, ha, hc, -⟩ := h.broken
  obtain ⟨-, ha', hc', -⟩ := h'.broken
  simp_all

/-! ## What the walk along a path finds -/

theorem not_brokenAt_of_walk_eq_ok {actions : List Action} (h : walk required? i p path = .ok actions) :
    ¬ BrokenAt (p.cell :: path) n a c := by
  induction path generalizing i p n actions with
  | nil => exact not_brokenAt_single
  | cons next rest ih =>
    obtain ⟨g, later, hnext, hlater, -⟩ := walk_cons_eq_ok_iff.mp h
    match n with
    | 0 => exact not_brokenAt_zero
    | 1 =>
      rw [brokenAt_one]
      rintro ⟨rfl, rfl, hbroken⟩
      exact hbroken (Cell.adjacent_iff_heading.mpr ⟨g, hnext⟩)
    | n + 2 =>
      rw [brokenAt_cons]
      exact ih hlater

theorem firstBreak_here {next : Cell} {rest : List Cell} (h : ¬ x.Adjacent next) :
    FirstBreak (x :: next :: rest) ⟨1, x, next⟩ := by
  refine ⟨brokenAt_one.mpr ⟨rfl, rfl, h⟩, fun i hi a c => ?_⟩
  obtain rfl : i = 0 := by simpa using hi
  exact not_brokenAt_zero

theorem FirstBreak.cons {next : Cell} {rest : List Cell} (hnext : x.Adjacent next)
    (h : FirstBreak (next :: rest) ⟨n, a, c⟩) : FirstBreak (x :: next :: rest) ⟨n + 1, a, c⟩ := by
  obtain ⟨m, rfl⟩ : ∃ m, n = m + 1 := Nat.exists_eq_add_of_le' h.broken.1
  refine ⟨brokenAt_cons.mpr h.broken, fun i hi a' c' => ?_⟩
  match i with
  | 0 => exact not_brokenAt_zero
  | 1 =>
    rw [brokenAt_one]
    rintro ⟨rfl, rfl, hbroken⟩
    exact hbroken hnext
  | i + 2 =>
    rw [brokenAt_cons]
    apply h.least
    simp at hi ⊢
    omega

theorem walk_cons_eq_error {next : Cell} {rest : List Cell}
    (h : walk required? i p (next :: rest) = .error b) :
    ¬ p.cell.Adjacent next ∧ b = ⟨i, p.cell, next⟩ ∨
      ∃ g, p.cell.Adjacent next ∧ walk required? (i + 1) ⟨next, g⟩ rest = .error b := by
  unfold walk at h
  cases hr : required? p.cell next with
  | none =>
    simp only [hr, Except.error.injEq] at h
    exact .inl ⟨required?_eq_none_iff.mp hr, h.symm⟩
  | some g =>
    refine .inr ⟨g, Cell.adjacent_iff_heading.mpr ⟨g, required?_eq_some_iff.mp hr⟩, ?_⟩
    simp only [hr] at h
    cases hw : walk required? (i + 1) ⟨next, g⟩ rest with
    | ok later => simp [hw, bind, Except.bind, pure, Except.pure] at h
    | error b' => simpa [hw, bind, Except.bind] using h

/-- The walk keeps the index of the cell that comes next, so that what it reports counts from the
beginning of the whole path. -/
theorem firstBreak_of_walk_eq_error (h : walk required? (i + 1) p path = .error b) :
    ∃ n, b.index = i + n ∧ FirstBreak (p.cell :: path) ⟨n, b.before, b.after⟩ := by
  induction path generalizing i p with
  | nil => simp [walk] at h
  | cons next rest ih =>
    rcases walk_cons_eq_error h with ⟨hbroken, rfl⟩ | ⟨g, hnext, hrest⟩
    · exact ⟨1, rfl, firstBreak_here hbroken⟩
    · obtain ⟨n, hn, hfirst⟩ := ih hrest
      exact ⟨n + 1, by omega, hfirst.cons hnext⟩

/-! ## Whole paths -/

theorem not_brokenAt_of_ofPath_eq_ok {h : Heading} {actions : List Action}
    (hok : ofPath path h = .ok actions) : ¬ BrokenAt path i a c := by
  cases path with
  | nil => simp [BrokenAt]
  | cons first rest => exact not_brokenAt_of_walk_eq_ok (p := ⟨first, h⟩) hok

theorem firstBreak_of_ofPath_eq_error {h : Heading} (herror : ofPath path h = .error b) :
    FirstBreak path b := by
  cases path with
  | nil => cases herror
  | cons first rest =>
    obtain ⟨n, hn, hfirst⟩ := firstBreak_of_walk_eq_error (i := 0) (p := ⟨first, h⟩) herror
    rw [Nat.zero_add] at hn
    rwa [← hn] at hfirst

theorem ofPath_eq_error_iff (h : Heading) : ofPath path h = .error b ↔ FirstBreak path b := by
  constructor
  · exact firstBreak_of_ofPath_eq_error
  · intro hfirst
    cases hplan : ofPath path h with
    | ok actions => exact absurd hfirst.broken (not_brokenAt_of_ofPath_eq_ok hplan)
    | error b' => rw [(firstBreak_of_ofPath_eq_error hplan).unique hfirst]

theorem exists_ofPath_eq_error_iff (h : Heading) :
    (∃ b, ofPath path h = .error b) ↔ ∃ i a c, BrokenAt path i a c := by
  constructor
  · rintro ⟨b, hb⟩
    exact ⟨_, _, _, (firstBreak_of_ofPath_eq_error hb).broken⟩
  · rintro ⟨i, a, c, hbroken⟩
    cases hplan : ofPath path h with
    | ok actions => exact absurd hbroken (not_brokenAt_of_ofPath_eq_ok hplan)
    | error b => exact ⟨b, rfl⟩

/-! ## Routes of roles -/

theorem route_eq (r : Role) (path : List Cell) (start finish : Cell) :
    r.route path start finish =
      if r.number % 2 = 0 ∨ start = finish then path else path.reverse := by
  unfold Role.route Role.spawn
  by_cases hr : r.number % 2 = 0
  · simp [hr]
  · simp [hr, eq_comm]

theorem plan_eq_error_iff (r : Role) (path : List Cell) (start finish : Cell) {e : MissionError} :
    (r.plan path start finish).mapError .plan = .error e ↔
      ∃ b, e = .plan b ∧ FirstBreak (r.route path start finish) b := by
  unfold Role.plan
  simp only [← ofPath_eq_error_iff (r.spawn start finish).heading]
  cases ofPath (r.route path start finish) (r.spawn start finish).heading with
  | ok actions => simp [Except.mapError]
  | error b => simp [Except.mapError, eq_comm]

/-- Planning fails exactly if some step of the path is broken. What it reports is the first broken
step, whatever the heading, and for a role that of the route that it walks. -/
theorem fails_at_first_break (path : List Cell) :
    (∀ h, (∃ b, ofPath path h = .error b) ↔ ∃ i a c, BrokenAt path i a c) ∧
      (∀ h b, ofPath path h = .error b ↔ FirstBreak path b) ∧
      (∀ g h b, ofPath path g = .error b ↔ ofPath path h = .error b) ∧
      ∀ (r : Role) (start finish : Cell) (e : MissionError),
        (r.plan path start finish).mapError .plan = .error e ↔
          ∃ b, e = .plan b ∧ FirstBreak
            (if r.number % 2 = 0 ∨ start = finish then path else path.reverse) b := by
  refine ⟨exists_ofPath_eq_error_iff, fun h b => ofPath_eq_error_iff h, fun g h b => ?_,
    fun r start finish e => ?_⟩
  · rw [ofPath_eq_error_iff g, ofPath_eq_error_iff h]
  · rw [plan_eq_error_iff, route_eq]

/-- A diagonal comes before a cell that is repeated. -/
example : ofPath [⟨0, 0⟩, ⟨0, 1⟩, ⟨1, 2⟩, ⟨1, 2⟩] .north = .error ⟨2, ⟨0, 1⟩, ⟨1, 2⟩⟩ := rfl

end Labyrinth.Plan

import Labyrinth.Proofs.Plan.Wrapped

/-!
# Plans are as short as possible

Whatever commands visit a path, its plan has no more of them. A turn brings the agent nearer to the
heading that it needs by one turn at most, and a move forward only stays on the path if the agent
already looks along its next step.
-/

namespace Labyrinth

theorem Heading.step_inj {g h : Heading} : g.step = h.step ↔ g = h := by
  constructor
  · intro heq
    have hg := Heading.ofStep?_step g
    rw [heq, Heading.ofStep?_step] at hg
    exact (Option.some.inj hg).symm
  · rintro rfl
    rfl

theorem Cell.offset_step_inj {a : Cell} {g h : Heading} :
    a.offset g.step.1 g.step.2 = a.offset h.step.1 h.step.2 ↔ g = h := by
  rw [← Heading.step_inj, Prod.ext_iff]
  simp only [Cell.offset, Cell.mk.injEq]
  omega

/-! ## What commands visit -/

namespace Pose

theorem isChain_visited (p : Pose) (cs : List Command) :
    (p.visited cs).IsChain Cell.Adjacent := by
  induction cs generalizing p with
  | nil => exact List.isChain_singleton _
  | cons c cs ih =>
    by_cases hc : c = .moveForward
    · subst hc
      have hlater := ih (p.apply .moveForward)
      obtain ⟨path, hpath⟩ := (p.apply .moveForward).exists_visited cs
      rw [hpath] at hlater
      rw [visited, hpath]
      exact hlater.cons_cons (Cell.adjacent_iff_heading.mpr ⟨p.heading, rfl⟩)
    · rw [visited_cons_of_turn hc]
      exact ih _

end Pose

namespace Plan

variable {i : Nat} {p : Pose} {path : List Cell} {actions : List Action} {c : Command}
  {cs : List Command}

/-! ## What a turn is worth -/

@[simp] theorem turns_self (h : Heading) : turns h h = [] := by cases h <;> rfl

theorem length_turns_le_of_turn (hc : c ≠ .moveForward) (p : Pose) (h : Heading) :
    (turns p.heading h).length ≤ (turns (p.apply c).heading h).length + 1 := by
  have hquarter : ∀ g : Heading, (turns g h).length ≤ (turns g.left h).length + 1 ∧
      (turns g h).length ≤ (turns g.right h).length + 1 := by
    intro g
    cases g <;> cases h <;> decide
  cases c with
  | turnLeft => exact (hquarter _).1
  | turnRight => exact (hquarter _).2
  | moveForward => exact absurd rfl hc

/-- Only the turns before the first step depend on where the agent looks. -/
theorem exists_walk_of_turn (hc : c ≠ .moveForward) (hw : walk required? i p path = .ok actions) :
    ∃ others, walk required? i (p.apply c) path = .ok others ∧
      actions.length ≤ others.length + 1 := by
  cases path with
  | nil =>
    obtain rfl : [] = actions := Except.ok.inj hw
    exact ⟨[], rfl, Nat.zero_le _⟩
  | cons next rest =>
    obtain ⟨g, later, hnext, hlater, rfl⟩ := walk_cons_eq_ok_iff.mp hw
    rw [← cell_apply_of_turn hc p] at hnext
    refine ⟨_, walk_cons_eq_ok_iff.mpr ⟨g, later, hnext, hlater, rfl⟩, ?_⟩
    have hturns := length_turns_le_of_turn hc p g
    simp only [List.length_append, List.length_map, List.length_cons]
    omega

/-! ## No commands are fewer -/

/-- Each command takes one action at most off the plan for what is still ahead. -/
theorem length_walk_le (hw : walk required? i p path = .ok actions)
    (hcs : p.visited cs = p.cell :: path) : actions.length ≤ cs.length := by
  induction cs generalizing i p path actions with
  | nil =>
    obtain rfl : [] = path := (List.cons.inj hcs).2
    obtain rfl : [] = actions := Except.ok.inj hw
    exact Nat.le_refl _
  | cons c cs ih =>
    by_cases hc : c = .moveForward
    · subst hc
      obtain ⟨rest, hrest⟩ := (p.apply .moveForward).exists_visited cs
      rw [Pose.visited, hrest] at hcs
      obtain rfl := (List.cons.inj hcs).2
      obtain ⟨g, later, hnext, hlater, rfl⟩ := walk_cons_eq_ok_iff.mp hw
      -- The move leads onto the path, so the agent looked along the step and the plan has no turn.
      obtain rfl : p.heading = g := Cell.offset_step_inj.mp hnext
      have hle := ih hlater hrest
      simpa using hle
    · obtain ⟨others, hothers, hle⟩ := exists_walk_of_turn hc hw
      rw [Pose.visited_cons_of_turn hc, ← cell_apply_of_turn hc p] at hcs
      exact hle.trans (Nat.succ_le_succ (ih hothers hcs))

theorem exists_ofPath_visited (p : Pose) (cs : List Command) :
    ∃ actions, ofPath (p.visited cs) p.heading = .ok actions ∧
      p.visited (actions.map Action.command) = p.visited cs ∧
      (p.applyAll (actions.map Action.command)).cell = (p.applyAll cs).cell ∧
      actions.length ≤ cs.length := by
  have hchain := p.isChain_visited cs
  obtain ⟨rest, hrest⟩ := p.exists_visited cs
  rw [hrest] at hchain
  obtain ⟨actions, hok⟩ := exists_walk_eq_ok hchain 1
  have hvisited := (walk_visited hok).trans hrest.symm
  refine ⟨actions, hrest ▸ hok, hvisited, ?_, length_walk_le hok hrest⟩
  have hcell := p.getLast?_visited (actions.map Action.command)
  rw [hvisited, p.getLast?_visited] at hcell
  exact (Option.some.inj hcell).symm

theorem exists_ofPathWrapped_visited {p : Pose} (h : p.cell.Fits) (cs : List Command) :
    ∃ actions, ofPathWrapped (p.replay cs).visited p.heading = .ok actions ∧
      (p.replay (actions.map Action.command)).visited = (p.replay cs).visited ∧
      (p.replay (actions.map Action.command)).pose.cell = (p.replay cs).pose.cell ∧
      actions.length ≤ cs.length := by
  obtain ⟨actions, hok, hvisited, hcell, hle⟩ := exists_ofPath_visited p cs
  have hcommands : (actions.map wrapTarget).map Action.command = actions.map Action.command :=
    List.map_map
  rw [← ofPathWrapped_eq (p.isChain_visited cs)] at hok
  refine ⟨actions.map wrapTarget, ?_, ?_, ?_, (List.length_map _).trans_le hle⟩
  · rw [Pose.replay_eq h]
    exact ofPathWrapped_wrapped hok
  · rw [hcommands, Pose.replay_eq h, Pose.replay_eq h, hvisited]
  · rw [hcommands, Pose.replay_eq h, Pose.replay_eq h]
    exact congrArg Cell.wrapped hcell

/-- A path of adjacent cells has a plan, and no commands that visit the path are fewer than its
actions. What any commands visit is such a path, also if they lead over the edge of the coordinates,
and its plan takes the agent over it to the same cell. Coordinates that do not come to the edge are
those of an unbounded floor. -/
theorem ofPath_minimal :
    (∀ (first : Cell) (rest : List Cell) (heading : Heading),
      first.Fits → (first :: rest).IsChain Cell.Adjacent →
      ∃ actions, ofPathWrapped (first :: rest) heading = .ok actions ∧
        ofPath (first :: rest) heading = .ok actions ∧
        ∀ cs, (Pose.replay ⟨first, heading⟩ cs).visited = first :: rest →
          actions.length ≤ cs.length) ∧
    (∀ (start : Cell) (heading : Heading) (cs : List Command), start.Fits →
      ∃ actions, ofPathWrapped (Pose.replay ⟨start, heading⟩ cs).visited heading = .ok actions ∧
        (Pose.replay ⟨start, heading⟩ (actions.map Action.command)).visited =
          (Pose.replay ⟨start, heading⟩ cs).visited ∧
        (Pose.replay ⟨start, heading⟩ (actions.map Action.command)).pose.cell =
          (Pose.replay ⟨start, heading⟩ cs).pose.cell ∧
        actions.length ≤ cs.length) ∧
    ∀ (start : Cell) (heading : Heading) (cs : List Command),
      (∀ c ∈ Pose.visited ⟨start, heading⟩ cs, c.Fits) →
      Pose.replay ⟨start, heading⟩ cs =
          ⟨Pose.applyAll ⟨start, heading⟩ cs, Pose.visited ⟨start, heading⟩ cs⟩ ∧
        ofPathWrapped (Pose.replay ⟨start, heading⟩ cs).visited heading =
          ofPath (Pose.visited ⟨start, heading⟩ cs) heading := by
  refine ⟨fun first rest heading hfits hpath => ?_, fun start heading cs hfits => ?_,
    fun start heading cs hfits => ?_⟩
  · obtain ⟨actions, hok⟩ := exists_walk_eq_ok (p := ⟨first, heading⟩) hpath 1
    have hwrapped : ofPathWrapped (first :: rest) heading = .ok actions :=
      (ofPathWrapped_eq hpath heading).trans hok
    refine ⟨actions, hwrapped, hok, fun cs hcs => ?_⟩
    obtain ⟨others, hothers, -, -, hle⟩ :=
      exists_ofPathWrapped_visited (p := ⟨first, heading⟩) hfits cs
    rw [hcs, hwrapped] at hothers
    exact Except.ok.inj hothers ▸ hle
  · exact exists_ofPathWrapped_visited (p := ⟨start, heading⟩) hfits cs
  · have hreplay := Pose.replay_eq_of_fits hfits
    exact ⟨hreplay, hreplay ▸ ofPathWrapped_eq (Pose.isChain_visited _ cs) heading⟩

/-- From a half turn, a step and a step back no command can be spared. A step to the east from the
last coordinate comes out at the first one, and is planned as one move. -/
theorem ofPath_minimal_there_and_back :
    (⟨1, 1⟩ : Cell).Fits ∧ ([⟨1, 1⟩, ⟨1, 2⟩, ⟨1, 1⟩] : List Cell).IsChain Cell.Adjacent ∧
      (ofPathWrapped [⟨1, 1⟩, ⟨1, 2⟩, ⟨1, 1⟩] .north).map List.length = .ok 6 ∧
      (∀ cs, (Pose.replay ⟨⟨1, 1⟩, .north⟩ cs).visited = [⟨1, 1⟩, ⟨1, 2⟩, ⟨1, 1⟩] →
        6 ≤ cs.length) ∧
      (⟨2147483647, 0⟩ : Cell).Fits ∧
      ∃ actions, ofPathWrapped [⟨2147483647, 0⟩, ⟨-2147483648, 0⟩] .east = .ok actions ∧
        actions.length ≤ 1 := by
  have hfits : (⟨1, 1⟩ : Cell).Fits := by decide
  have hpath : ([⟨1, 1⟩, ⟨1, 2⟩, ⟨1, 1⟩] : List Cell).IsChain Cell.Adjacent := by decide
  have hlength : (ofPathWrapped [⟨1, 1⟩, ⟨1, 2⟩, ⟨1, 1⟩] .north).map List.length = .ok 6 := rfl
  have hedge : (⟨2147483647, 0⟩ : Cell).Fits := by decide
  obtain ⟨hminimal, hwrapped, -⟩ := ofPath_minimal
  obtain ⟨actions, hok, -, hmin⟩ := hminimal _ _ .north hfits hpath
  rw [hok] at hlength
  have hsix : actions.length = 6 := Except.ok.inj hlength
  obtain ⟨move, hmove, -, -, hone⟩ := hwrapped _ .east [.moveForward] hedge
  exact ⟨hfits, hpath, rfl, fun cs hcs => hsix ▸ hmin cs hcs, hedge, move, hmove, hone⟩

end Plan

end Labyrinth

import Labyrinth.Plan
import Mathlib.Data.List.Chain

/-!
# Plans carry out their paths

A plan leads an agent over its path: after each command the agent stands on the cell that the action
records, the moves visit exactly the cells of the path, and the agent ends on the last cell and
looks along the last step.
-/

namespace Labyrinth

/-! ## Headings of steps -/

theorem Heading.ofStep?_eq_some_iff {d : Int × Int} {h : Heading} :
    Heading.ofStep? d = some h ↔ d = h.step := by
  constructor
  · intro hd
    unfold Heading.ofStep? at hd
    split at hd <;> cases hd <;> rfl
  · rintro rfl
    exact Heading.ofStep?_step h

theorem Cell.adjacent_iff_heading {a b : Cell} :
    a.Adjacent b ↔ ∃ h : Heading, b = a.offset h.step.1 h.step.2 := by
  rw [← Cell.mem_neighbors]
  constructor
  · intro hb
    simp only [Cell.neighbors, Cell.directions, List.map_cons, List.map_nil, List.mem_cons,
      List.not_mem_nil, or_false] at hb
    rcases hb with rfl | rfl | rfl | rfl
    · exact ⟨.south, rfl⟩
    · exact ⟨.north, rfl⟩
    · exact ⟨.east, rfl⟩
    · exact ⟨.west, rfl⟩
  · rintro ⟨h, rfl⟩
    cases h <;> simp [Cell.neighbors, Cell.directions, Heading.step]

namespace Pose

@[simp] theorem applyAll_cons (p : Pose) (c : Command) (cs : List Command) :
    p.applyAll (c :: cs) = (p.apply c).applyAll cs := rfl

theorem visited_cons_of_turn {c : Command} (h : c ≠ .moveForward) (p : Pose) (cs : List Command) :
    p.visited (c :: cs) = (p.apply c).visited cs := by
  cases c with
  | turnLeft | turnRight => rfl
  | moveForward => exact absurd rfl h

end Pose

namespace Plan

theorem required?_eq_some_iff {here next : Cell} {h : Heading} :
    required? here next = some h ↔ next = here.offset h.step.1 h.step.2 := by
  rw [required?, Heading.ofStep?_eq_some_iff]
  obtain ⟨x, z⟩ := here
  obtain ⟨nx, nz⟩ := next
  simp only [Cell.offset, Prod.ext_iff, Cell.mk.injEq]
  omega

theorem required?_eq_none_iff {here next : Cell} :
    required? here next = none ↔ ¬ here.Adjacent next := by
  rw [Cell.adjacent_iff_heading, Option.eq_none_iff_forall_ne_some]
  simp only [ne_eq, required?_eq_some_iff, not_exists]

/-! ## Turning -/

theorem applyAll_turns (p : Pose) (h : Heading) :
    p.applyAll (turns p.heading h) = ⟨p.cell, h⟩ := by
  obtain ⟨c, g⟩ := p
  cases g <;> cases h <;> rfl

theorem not_moveForward_of_mem_turns {g h : Heading} {c : Command} (hc : c ∈ turns g h) :
    c ≠ .moveForward := by
  rintro rfl
  revert hc
  cases g <;> cases h <;> decide

theorem cell_apply_of_turn {c : Command} (h : c ≠ .moveForward) (p : Pose) :
    (p.apply c).cell = p.cell := by
  cases c with
  | turnLeft | turnRight => rfl
  | moveForward => exact absurd rfl h

theorem visited_turns_append (cs ts : List Command) (ht : ∀ t ∈ ts, t ≠ .moveForward) (p : Pose) :
    p.visited (ts ++ cs) = (p.applyAll ts).visited cs := by
  induction ts generalizing p with
  | nil => rfl
  | cons t ts ih =>
    rw [List.cons_append, Pose.visited_cons_of_turn (ht t List.mem_cons_self)]
    exact ih (fun u hu => ht u (List.mem_cons_of_mem _ hu)) _

end Plan

/-! ## What commands visit -/

namespace Pose

theorem exists_visited (p : Pose) (cs : List Command) : ∃ path, p.visited cs = p.cell :: path := by
  induction cs generalizing p with
  | nil => exact ⟨[], rfl⟩
  | cons c cs ih =>
    by_cases hc : c = .moveForward
    · subst hc
      exact ⟨_, rfl⟩
    · rw [visited_cons_of_turn hc, ← Plan.cell_apply_of_turn hc p]
      exact ih _

theorem getLast?_visited (p : Pose) (cs : List Command) :
    (p.visited cs).getLast? = some (p.applyAll cs).cell := by
  induction cs generalizing p with
  | nil => rfl
  | cons c cs ih =>
    rw [applyAll_cons, ← ih]
    by_cases hc : c = .moveForward
    · subst hc
      obtain ⟨path, hpath⟩ := (p.apply .moveForward).exists_visited cs
      rw [visited, hpath, List.getLast?_cons_cons]
    · rw [visited_cons_of_turn hc]

end Pose

namespace Plan

/-! ## What a planned walk consists of -/

theorem walk_eq_ok_iff {required : Cell → Cell → Option Heading} {i : Nat} {p : Pose} {next : Cell}
    {rest : List Cell} {actions : List Action} :
    walk required i p (next :: rest) = .ok actions ↔
      ∃ h later, required p.cell next = some h ∧
        walk required (i + 1) ⟨next, h⟩ rest = .ok later ∧
        actions = (turns p.heading h).map (⟨·, p.cell⟩) ++ ⟨.moveForward, next⟩ :: later := by
  rw [walk]
  cases hr : required p.cell next with
  | none => simp
  | some h =>
    cases hl : walk required (i + 1) ⟨next, h⟩ rest with
    | error b => simp [hl, bind, Except.bind]
    | ok later => simp [hl, bind, Except.bind, pure, Except.pure, eq_comm]

theorem walk_cons_eq_ok_iff {i : Nat} {p : Pose} {next : Cell} {rest : List Cell}
    {actions : List Action} :
    walk required? i p (next :: rest) = .ok actions ↔
      ∃ h later, next = p.cell.offset h.step.1 h.step.2 ∧
        walk required? (i + 1) ⟨next, h⟩ rest = .ok later ∧
        actions = (turns p.heading h).map (⟨·, p.cell⟩) ++ ⟨.moveForward, next⟩ :: later := by
  simp only [walk_eq_ok_iff, required?_eq_some_iff]

theorem exists_walk_eq_ok {p : Pose} {path : List Cell}
    (h : (p.cell :: path).IsChain Cell.Adjacent) (i : Nat) :
    ∃ actions, walk required? i p path = .ok actions := by
  induction path generalizing p i with
  | nil => exact ⟨[], rfl⟩
  | cons next rest ih =>
    obtain ⟨hnext, hrest⟩ := List.isChain_cons_cons.mp h
    obtain ⟨g, hg⟩ := Cell.adjacent_iff_heading.mp hnext
    obtain ⟨later, hl⟩ := ih (p := ⟨next, g⟩) hrest (i + 1)
    exact ⟨_, walk_cons_eq_ok_iff.mpr ⟨g, later, hg, hl, rfl⟩⟩

/-! ## Where a plan leads -/

/-- The agent stands on the target of each action after its command, and takes the pose `q` in the
end. -/
inductive Leads : Pose → List Action → Pose → Prop where
  | done (p : Pose) : Leads p [] p
  | act {p q : Pose} {a : Action} {rest : List Action}
      (target : (p.apply a.command).cell = a.target) (later : Leads (p.apply a.command) rest q) :
      Leads p (a :: rest) q

theorem Leads.append {p q r : Pose} {as bs : List Action} (ha : Leads p as q) (hb : Leads q bs r) :
    Leads p (as ++ bs) r := by
  induction ha with
  | done p => exact hb
  | act target _ ih => exact .act target (ih hb)

theorem Leads.applyAll {p q : Pose} {as : List Action} (h : Leads p as q) :
    p.applyAll (as.map Action.command) = q := by
  induction h with
  | done p => rfl
  | act _ _ ih => exact ih

theorem Leads.cell_applyAll_take {p q : Pose} {as : List Action} (h : Leads p as q) (i : Nat)
    (hi : i ≤ as.length) :
    (p.cell :: as.map Action.target)[i]? =
      some (p.applyAll ((as.take i).map Action.command)).cell := by
  induction h generalizing i with
  | done p =>
    obtain rfl : i = 0 := by simpa using hi
    rfl
  | @act p q a rest target _ ih =>
    cases i with
    | zero => rfl
    | succ i =>
      rw [List.length_cons] at hi
      have hrest := ih i (by omega)
      rw [target] at hrest
      simpa using hrest

theorem leads_turns (p : Pose) (h : Heading) :
    Leads p ((turns p.heading h).map (⟨·, p.cell⟩)) ⟨p.cell, h⟩ := by
  have hturns : ∀ ts : List Command, (∀ t ∈ ts, t ≠ .moveForward) → ∀ q : Pose,
      Leads q (ts.map (⟨·, q.cell⟩)) (q.applyAll ts) := by
    intro ts ht
    induction ts with
    | nil => exact .done
    | cons t ts ih =>
      intro q
      have hcell := cell_apply_of_turn (ht t List.mem_cons_self) q
      have hlater := ih (fun u hu => ht u (List.mem_cons_of_mem _ hu)) (q.apply t)
      rw [hcell] at hlater
      exact .act hcell hlater
  rw [← applyAll_turns p h]
  exact hturns _ (fun t ht => not_moveForward_of_mem_turns ht) p

/-- The pose at the end of a path: on its last cell, and looking along its last step. -/
def arrival (p : Pose) : List Cell → Pose
  | [] => p
  | next :: rest => arrival ⟨next, (required? p.cell next).getD p.heading⟩ rest

theorem cell_arrival (p : Pose) (path : List Cell) :
    (arrival p path).cell = (p.cell :: path).getLast (List.cons_ne_nil _ _) := by
  induction path generalizing p with
  | nil => rfl
  | cons next rest ih => rw [arrival, ih, List.getLast_cons_cons]

theorem step_heading_arrival {p : Pose} {path before : List Cell} {a b : Cell}
    (hpath : p.cell :: path = before ++ [a, b]) (h : (p.cell :: path).IsChain Cell.Adjacent) :
    (arrival p path).heading.step = (b.x - a.x, b.z - a.z) := by
  induction path generalizing p before with
  | nil => simpa using congrArg List.length hpath
  | cons next rest ih =>
    obtain ⟨hnext, hrest⟩ := List.isChain_cons_cons.mp h
    cases before with
    | nil =>
      simp only [List.nil_append, List.cons.injEq] at hpath
      obtain ⟨rfl, rfl, rfl⟩ := hpath
      obtain ⟨g, hg⟩ := Cell.adjacent_iff_heading.mp hnext
      have hrequired : required? p.cell next = some g := required?_eq_some_iff.mpr hg
      rw [arrival, arrival, hrequired]
      exact (Heading.ofStep?_eq_some_iff.mp hrequired).symm
    | cons c before =>
      rw [List.cons_append, List.cons.injEq] at hpath
      exact ih hpath.2 hrest

theorem walk_leads {i : Nat} {p : Pose} {path : List Cell} {actions : List Action}
    (h : walk required? i p path = .ok actions) : Leads p actions (arrival p path) := by
  induction path generalizing i p actions with
  | nil =>
    obtain rfl : [] = actions := Except.ok.inj h
    exact .done p
  | cons next rest ih =>
    obtain ⟨g, later, hnext, hlater, rfl⟩ := walk_cons_eq_ok_iff.mp h
    have hg : required? p.cell next = some g := required?_eq_some_iff.mpr hnext
    rw [arrival, hg, Option.getD_some]
    have hmove : (Pose.apply ⟨p.cell, g⟩ .moveForward) = ⟨next, g⟩ := by
      rw [hnext]
      rfl
    refine (leads_turns p g).append (.act ?_ ?_)
    · rw [hmove]
    · rw [hmove]
      exact ih hlater

/-! ## What a plan visits -/

theorem walk_visited {i : Nat} {p : Pose} {path : List Cell} {actions : List Action}
    (h : walk required? i p path = .ok actions) :
    p.visited (actions.map Action.command) = p.cell :: path := by
  induction path generalizing i p actions with
  | nil =>
    obtain rfl : [] = actions := Except.ok.inj h
    rfl
  | cons next rest ih =>
    obtain ⟨g, later, hnext, hlater, rfl⟩ := walk_cons_eq_ok_iff.mp h
    have hcommands : ((turns p.heading g).map fun c => (⟨c, p.cell⟩ : Action)).map Action.command =
        turns p.heading g := by
      rw [List.map_map]
      exact List.map_id _
    rw [List.map_append, hcommands, visited_turns_append _ _ fun t => not_moveForward_of_mem_turns,
      applyAll_turns]
    have hmove : (Pose.apply ⟨p.cell, g⟩ .moveForward) = ⟨next, g⟩ := by
      rw [hnext]
      rfl
    rw [List.map_cons, Pose.visited, hmove, ih hlater]

theorem length_visited (p : Pose) (cs : List Command) :
    (p.visited cs).length = cs.count .moveForward + 1 := by
  induction cs generalizing p with
  | nil => rfl
  | cons c cs ih =>
    cases c with
    | moveForward => simp [Pose.visited, ih]
    | turnLeft | turnRight => simp [Pose.visited, ih]

/-! ## Plans of whole paths -/

/-- Every path of adjacent cells has a plan. Its commands take the agent from target to target,
visit the path and nothing else, and end on the last cell, where the agent looks along the last
step. -/
theorem ofPath_replays (first : Cell) (rest : List Cell) (heading : Heading)
    (h : (first :: rest).IsChain Cell.Adjacent) :
    ∃ actions, ofPath (first :: rest) heading = .ok actions ∧
      (∀ i ≤ actions.length, (first :: actions.map Action.target)[i]? =
        some (Pose.applyAll ⟨first, heading⟩ ((actions.take i).map Action.command)).cell) ∧
      Pose.visited ⟨first, heading⟩ (actions.map Action.command) = first :: rest ∧
      (Pose.applyAll ⟨first, heading⟩ (actions.map Action.command)).cell =
        (first :: rest).getLast (List.cons_ne_nil _ _) ∧
      (rest = [] →
        (Pose.applyAll ⟨first, heading⟩ (actions.map Action.command)).heading = heading) ∧
      (∀ before a b, first :: rest = before ++ [a, b] →
        (Pose.applyAll ⟨first, heading⟩ (actions.map Action.command)).heading.step =
          (b.x - a.x, b.z - a.z)) ∧
      (actions.map Action.command).count .moveForward = (first :: rest).length - 1 := by
  obtain ⟨actions, hok⟩ := exists_walk_eq_ok (p := ⟨first, heading⟩) h 1
  have hleads := walk_leads hok
  have hvisited := walk_visited hok
  refine ⟨actions, hok, hleads.cell_applyAll_take, hvisited, ?_, ?_, ?_, ?_⟩
  · rw [hleads.applyAll, cell_arrival]
  · rintro rfl
    rw [hleads.applyAll, arrival]
  · intro before a b hpath
    rw [hleads.applyAll]
    exact step_heading_arrival hpath h
  · have hlength := length_visited ⟨first, heading⟩ (actions.map Action.command)
    rw [hvisited] at hlength
    exact (Nat.sub_eq_of_eq_add hlength).symm

/-- Around a square and back, with a half turn first. -/
theorem ofPath_replays_around_square :
    ([⟨1, 1⟩, ⟨1, 2⟩, ⟨2, 2⟩, ⟨2, 1⟩, ⟨1, 1⟩] : List Cell).IsChain Cell.Adjacent ∧
      ∃ actions, ofPath [⟨1, 1⟩, ⟨1, 2⟩, ⟨2, 2⟩, ⟨2, 1⟩, ⟨1, 1⟩] .north = .ok actions ∧
        Pose.visited ⟨⟨1, 1⟩, .north⟩ (actions.map Action.command) =
          [⟨1, 1⟩, ⟨1, 2⟩, ⟨2, 2⟩, ⟨2, 1⟩, ⟨1, 1⟩] ∧
        (actions.map Action.command).count .moveForward = 4 := by
  have hpath : ([⟨1, 1⟩, ⟨1, 2⟩, ⟨2, 2⟩, ⟨2, 1⟩, ⟨1, 1⟩] : List Cell).IsChain Cell.Adjacent := by
    decide
  obtain ⟨actions, hok, -, hvisited, -, -, -, hmoves⟩ := ofPath_replays _ _ .north hpath
  exact ⟨hpath, actions, hok, hvisited, hmoves⟩

end Plan

end Labyrinth

import Labyrinth.Engine.Basic
import Labyrinth.Proofs.Grid.Walk
import Labyrinth.Proofs.Plan.Replay

/-!
# Courses

An agent of the engine that is sent the plan of its role follows its route from end to end, since no
wall is in the way.
-/

namespace Labyrinth

variable {r : Role} {start finish : Cell} {path : List Cell}

namespace Engine

variable {e : Engine} {p : Pose}

def movedAll (e : Engine) (p : Pose) (cs : List Command) : Pose := cs.foldl e.moved p

theorem cell_mem_visited (p : Pose) (cs : List Command) : p.cell ∈ p.visited cs := by
  induction cs generalizing p with
  | nil => exact List.mem_singleton_self _
  | cons c cs ih =>
    cases c with
    | moveForward => exact List.mem_cons_self
    | turnLeft => exact ih (p.apply .turnLeft)
    | turnRight => exact ih (p.apply .turnRight)

theorem movedAll_eq_applyAll {cs : List Command} (h : ∀ c ∈ p.visited cs, e.grid.isOpen c) :
    e.movedAll p cs = p.applyAll cs := by
  induction cs generalizing p with
  | nil => rfl
  | cons c cs ih =>
    have hsub : ∀ d ∈ (p.apply c).visited cs, e.grid.isOpen d := fun d hd => h d (by
      cases c with
      | moveForward => exact List.mem_cons_of_mem _ hd
      | turnLeft | turnRight => exact hd)
    have hmoved : e.moved p c = p.apply c := by
      rw [moved, if_pos (hsub _ (cell_mem_visited _ _))]
    change e.movedAll (e.moved p c) cs = (p.apply c).applyAll cs
    rw [hmoved, ih hsub]

end Engine

def Role.destination (r : Role) (start finish : Cell) : Cell :=
  if r.number % 2 = 0 then finish else start

theorem Role.walk_route {g : Grid} (h : g.Walk start finish path) :
    g.Walk (r.spawn start finish).cell (r.destination start finish)
      (r.route path start finish) := by
  unfold Role.route Role.destination Role.spawn
  split
  · rwa [if_pos rfl]
  · split
    · rename_i hback
      obtain rfl : finish = start := hback
      exact h
    · exact h.reverse

theorem Engine.exists_plan (e : Engine) (r : Role) (h : e.grid.Walk e.start e.finish path) :
    ∃ actions, r.plan path e.start e.finish = .ok actions ∧
      (e.movedAll (e.spawn r) (actions.map Action.command)).cell =
        r.destination e.start e.finish := by
  have hroute := Role.walk_route (r := r) h
  obtain ⟨rest, hrest⟩ := hroute.exists_cons
  rw [hrest] at hroute
  obtain ⟨actions, hok⟩ := Plan.exists_walk_eq_ok (p := e.spawn r) hroute.linked 1
  have hvisited := Plan.walk_visited hok
  refine ⟨actions, ?_, ?_⟩
  · rw [Role.plan, hrest]
    exact hok
  · rw [movedAll_eq_applyAll, (Plan.walk_leads hok).applyAll, Plan.cell_arrival]
    · exact Option.some.inj ((List.getLast?_eq_some_getLast _).symm.trans hroute.last)
    · rw [hvisited]
      exact hroute.floor

end Labyrinth

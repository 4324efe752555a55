import Labyrinth.Proofs.Engine.Course
import Labyrinth.Proofs.Maze.Rooms
import Labyrinth.Proofs.Route.Distances

/-!
# Routes through a maze

In a perfect maze the only path between two open cells is also the shortest walk. So the search
finds the same route from either end, and every role has a plan for it.
-/

namespace Labyrinth

variable {g : Grid} {start a b : Cell} {w : List Cell}

namespace Grid.Perfect

theorem exists_walk (h : g.Perfect start) (ha : g.isOpen a) (hb : g.isOpen b) :
    ∃ w, g.Walk a b w := by
  obtain ⟨v, hv⟩ := h.reaches a ha
  obtain ⟨w, hw⟩ := h.reaches b hb
  exact ⟨_, hv.reverse.append hw⟩

theorem shortest_spec (h : g.Perfect start) (ha : g.isOpen a) (hb : g.isOpen b) :
    g.Shortest a b (Route.shortest g a b) := by
  apply Route.shortest_of_ne_nil
  rw [Route.shortest_ne_nil_iff]
  exact h.exists_walk ha hb

theorem path_iff (h : g.Perfect start) (ha : g.isOpen a) (hb : g.isOpen b) :
    g.Path a b w ↔ w = Route.shortest g a b := by
  have hshortest := h.shortest_spec ha hb
  have hpath : g.Path a b (Route.shortest g a b) := ⟨hshortest.1, hshortest.nodup⟩
  constructor
  · intro hw
    exact h.path_eq hw hpath
  · rintro rfl
    exact hpath

theorem shortest_symm (h : g.Perfect start) (ha : g.isOpen a) (hb : g.isOpen b) :
    Route.shortest g b a = (Route.shortest g a b).reverse := by
  have hpath : g.Path a b (Route.shortest g a b) := (h.path_iff ha hb).mpr rfl
  exact ((h.path_iff hb ha).mp hpath.reverse).symm

theorem distances_eq (h : g.Perfect start) (ha : g.isOpen a) (hb : g.isOpen b) :
    (Route.distances g a)[b]? = some ((Route.shortest g a b).length - 1) := by
  rw [Route.distances_eq_some_iff]
  exact (h.shortest_spec ha hb).isDist

end Grid.Perfect

namespace Plot

variable {σ : Type} {p : Plot} {size : Nat}

theorem isOpen_start (hp : withStart size start = .ok p) (hsize : size < 2147483648)
    (chance : Chance σ) (s : σ) : (p.carve chance s).1.isOpen p.start := by
  obtain ⟨-, ⟨hin, hroom⟩, rfl⟩ := withStart_eq_ok_iff.mp hp
  exact isOpen_carve hp hsize chance s hin hroom

theorem isOpen_defaultEnd (hp : withStart size start = .ok p) (hsize : size < 2147483648)
    (chance : Chance σ) (s : σ) : (p.carve chance s).1.isOpen p.defaultEnd := by
  obtain ⟨hgood, -, rfl⟩ := withStart_eq_ok_iff.mp hp
  obtain ⟨hin, hroom⟩ := interior_defaultEnd start hgood hsize
  exact isOpen_carve hp hsize chance s hin hroom

/-- In a carved maze the route between two open cells is the only path between them. It is the same
from both ends, and its number of steps is the distance. Every role has a plan for the route to the
default end. -/
theorem carve_routes (hp : withStart size start = .ok p) (hsize : size < 2147483648)
    (chance : Chance σ) (s : σ) :
    let g := (p.carve chance s).1
    g.isOpen p.defaultEnd ∧
      (∀ a b, g.isOpen a → g.isOpen b →
        Route.shortest g a b ≠ [] ∧
        (∀ w, g.Path a b w ↔ w = Route.shortest g a b) ∧
        Route.shortest g b a = (Route.shortest g a b).reverse ∧
        (Route.distances g a)[b]? = some ((Route.shortest g a b).length - 1)) ∧
      ∀ r : Role, ∃ actions,
        r.plan (Route.shortest g start p.defaultEnd) start p.defaultEnd = .ok actions := by
  intro g
  have hperfect : g.Perfect start := carve_perfect hp hsize chance s
  have hend : g.isOpen p.defaultEnd := isOpen_defaultEnd hp hsize chance s
  refine ⟨hend, ?_, ?_⟩
  · intro a b ha hb
    refine ⟨(hperfect.shortest_spec ha hb).1.ne_nil, fun w => hperfect.path_iff ha hb,
      hperfect.shortest_symm ha hb, hperfect.distances_eq ha hb⟩
  · intro r
    have hstart : g.isOpen start := by
      have hopen := isOpen_start hp hsize chance s
      obtain ⟨-, -, rfl⟩ := withStart_eq_ok_iff.mp hp
      exact hopen
    have hwalk := (hperfect.shortest_spec hstart hend).1
    let e : Engine := .ofMaze g start p.defaultEnd .standard
    obtain ⟨actions, hplan, -⟩ := Engine.exists_plan e r hwalk
    exact ⟨actions, hplan⟩

/-- From a start in the middle of a maze of size 7, between two of its corners. -/
theorem carve_routes_seven :
    let g := ((Plot.mk 7 ⟨3, 3⟩).carve (fun n (s : Nat) => (Fin.ofNat (n + 1) s, s + 1)) 5).1
    withStart 7 ⟨3, 3⟩ = .ok ⟨7, ⟨3, 3⟩⟩ ∧ 7 < 2147483648 ∧ g.isOpen ⟨1, 5⟩ ∧ g.isOpen ⟨5, 1⟩ ∧
      (∀ w, g.Path ⟨1, 5⟩ ⟨5, 1⟩ w ↔ w = Route.shortest g ⟨1, 5⟩ ⟨5, 1⟩) ∧
      Route.shortest g ⟨5, 1⟩ ⟨1, 5⟩ = (Route.shortest g ⟨1, 5⟩ ⟨5, 1⟩).reverse ∧
      ∃ actions, (Role.mk 1).plan (Route.shortest g ⟨3, 3⟩ ⟨5, 5⟩) ⟨3, 3⟩ ⟨5, 5⟩ = .ok actions := by
  intro g
  have hp : withStart 7 ⟨3, 3⟩ = .ok ⟨7, ⟨3, 3⟩⟩ := rfl
  have hsize : 7 < 2147483648 := by decide
  have hroom : ∀ q : Cell, Interior 7 q → q.IsRoom → g.isOpen q := fun q =>
    isOpen_carve hp hsize _ _
  have ha : g.isOpen ⟨1, 5⟩ := hroom _ (by decide) ⟨rfl, rfl⟩
  have hb : g.isOpen ⟨5, 1⟩ := hroom _ (by decide) ⟨rfl, rfl⟩
  obtain ⟨-, hroutes, hplans⟩ := carve_routes hp hsize
    (fun n (s : Nat) => (Fin.ofNat (n + 1) s, s + 1)) 5
  obtain ⟨-, honly, hback, -⟩ := hroutes _ _ ha hb
  exact ⟨hp, hsize, ha, hb, honly, hback, hplans ⟨1⟩⟩

end Plot

end Labyrinth

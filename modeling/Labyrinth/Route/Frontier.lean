import Labyrinth.Grid.Basic
import Std.Data.HashMap

/-!
# Frontiers

A frontier grows from its root over the open cells, one layer of equal distance at a time. It keeps
for each cell that it holds the cell from which it was found.
-/

namespace Labyrinth

structure Frontier where
  /-- The cells held, each with the cell from which it was found. The root was found from none. -/
  parents : Std.HashMap Cell (Option Cell)
  /-- The outermost layer in the order of discovery. -/
  layer : List Cell

namespace Frontier

def ofRoot (root : Cell) : Frontier :=
  ⟨(∅ : Std.HashMap Cell (Option Cell)).insert root none, [root]⟩

def holds (f : Frontier) (c : Cell) : Bool := f.parents.contains c

/-! ## Growing -/

/-- A frontier that is growing: the next layer so far, last found first, and the first cell found
that was sought. -/
structure Growth where
  parents : Std.HashMap Cell (Option Cell)
  found : List Cell
  meeting : Option Cell

/-- Takes up the new ones of the neighbours of `here`, until one of them is sought. -/
def Growth.visit (sought : Cell → Bool) (here : Cell) (g : Growth) : List Cell → Growth
  | [] => g
  | n :: ns =>
    if g.parents.contains n then g.visit sought here ns
    else
      let parents := g.parents.insert n (some here)
      if sought n then { g with parents, meeting := some n }
      else Growth.visit sought here { g with parents, found := n :: g.found } ns

/-- Visits the cells of a layer in turn, until a cell is found that is sought. -/
def Growth.visitAll (grid : Grid) (sought : Cell → Bool) (g : Growth) : List Cell → Growth
  | [] => g
  | c :: cs =>
    let g := g.visit sought c (grid.openNeighbors c)
    match g.meeting with
    | some _ => g
    | none => g.visitAll grid sought cs

/-- The frontier with the next layer as its outermost one, and the first cell of it that is sought.
The layer is complete if there is no such cell. -/
def grow (grid : Grid) (sought : Cell → Bool) (f : Frontier) : Frontier × Option Cell :=
  let g := Growth.visitAll grid sought ⟨f.parents, [], none⟩ f.layer
  (⟨g.parents, g.found.reverse⟩, g.meeting)

/-! ## Progress -/

/-- The cells of the square, row by row. -/
def places (grid : Grid) : List Cell :=
  (List.range grid.size).flatMap fun z =>
    (List.range grid.size).map fun x => ⟨Int.ofNat x, Int.ofNat z⟩

theorem mem_places_of_isOpen {grid : Grid} {c : Cell} (h : grid.isOpen c) : c ∈ places grid := by
  have hc : grid.contains c := by
    have hget : grid.get? c = some .floor := of_decide_eq_true h
    unfold Grid.get? at hget
    split at hget
    · assumption
    · cases hget
  obtain ⟨x, z⟩ := c
  simp only [Grid.contains, Bool.and_eq_true, decide_eq_true_eq] at hc
  simp only [places, List.mem_flatMap, List.mem_map, List.mem_range, Cell.mk.injEq,
    Int.ofNat_eq_natCast]
  exact ⟨z.toNat, by omega, x.toNat, by omega, by omega, by omega⟩

/-- How many cells of the square a table has no entry for. -/
def unheld {α : Type} (grid : Grid) (held : Std.HashMap Cell α) : Nat :=
  (places grid).countP fun c => !held.contains c

theorem countP_lt_countP {α : Type} {p q : α → Bool} {l : List α} {a : α}
    (hpq : ∀ b ∈ l, p b → q b) (ha : a ∈ l) (hp : ¬ p a) (hq : q a) : l.countP p < l.countP q := by
  induction l with
  | nil => cases ha
  | cons b l ih =>
    have hle := List.countP_mono_left fun c hc => hpq c (List.mem_cons_of_mem _ hc)
    have hb := hpq b List.mem_cons_self
    rw [List.countP_cons, List.countP_cons]
    rcases List.mem_cons.1 ha with rfl | ha
    · rw [if_neg hp, if_pos hq]
      omega
    · have hlt := ih (fun c hc => hpq c (List.mem_cons_of_mem _ hc)) ha
      split
      · rw [if_pos (hb ‹_›)]
        omega
      · omega

theorem unheld_insert_lt {α : Type} {grid : Grid} {held : Std.HashMap Cell α} {c : Cell}
    (hc : c ∈ places grid) (hnew : ¬ held.contains c) (entry : α) :
    unheld grid (held.insert c entry) < unheld grid held := by
  apply countP_lt_countP (a := c) _ hc
  · simp
  · simpa using hnew
  · intro b _
    simp only [Std.HashMap.contains_insert, Bool.not_or, Bool.and_eq_true]
    exact And.right

/-- The cells of the square that are not held, and those found so far. -/
def Growth.left (grid : Grid) (g : Growth) : Nat := unheld grid g.parents + g.found.length

theorem Growth.left_visit_le {grid : Grid} (sought : Cell → Bool) (here : Cell) {ns : List Cell}
    (hns : ∀ n ∈ ns, n ∈ places grid) (g : Growth) :
    (g.visit sought here ns).left grid ≤ g.left grid := by
  induction ns generalizing g with
  | nil => exact Nat.le_refl _
  | cons n ns ih =>
    have hlater : ∀ g : Growth, (g.visit sought here ns).left grid ≤ g.left grid :=
      ih fun m hm => hns m (List.mem_cons_of_mem _ hm)
    rw [visit]
    split
    · exact hlater g
    · have hlt := unheld_insert_lt (hns n List.mem_cons_self) ‹_› (some here)
      dsimp only
      split
      · simp only [left]
        omega
      · refine Nat.le_trans (hlater _) ?_
        simp only [left, List.length_cons]
        omega

theorem Growth.left_visitAll_le (grid : Grid) (sought : Cell → Bool) (cs : List Cell) (g : Growth) :
    (g.visitAll grid sought cs).left grid ≤ g.left grid := by
  induction cs generalizing g with
  | nil => exact Nat.le_refl _
  | cons c cs ih =>
    have hplaces : ∀ n ∈ grid.openNeighbors c, n ∈ places grid := fun n hn =>
      mem_places_of_isOpen (List.mem_filter.1 hn).2
    have hvisit := left_visit_le sought c hplaces g
    rw [visitAll]
    split
    · exact hvisit
    · exact Nat.le_trans (ih _) hvisit

/-- The cells of the square that are not held, and one more unless the frontier has stopped. -/
def left (grid : Grid) (f : Frontier) : Nat :=
  unheld grid f.parents + if f.layer = [] then 0 else 1

theorem left_grow_lt (grid : Grid) (sought : Cell → Bool) {f : Frontier} (h : f.layer ≠ []) :
    (f.grow grid sought).1.left grid < f.left grid := by
  have hle := Growth.left_visitAll_le grid sought f.layer ⟨f.parents, [], none⟩
  simp only [Growth.left, List.length_nil, Nat.add_zero] at hle
  simp only [left, grow, if_neg h, List.reverse_eq_nil_iff]
  split
  · omega
  · have := List.length_pos_iff.2 ‹_›
    omega

/-! ## The way back -/

/-- The cells from `c` back to the root, at most `fuel` steps. -/
def walkBack (f : Frontier) : Nat → Cell → List Cell
  | 0, c => [c]
  | fuel + 1, c =>
    match f.parents[c]? with
    | some (some parent) => c :: f.walkBack fuel parent
    | _ => [c]

/-- The cells from `c` back to the root. A walk without repeats has no more steps than there are
cells held. -/
def wayBack (f : Frontier) (c : Cell) : List Cell := f.walkBack f.parents.size c

end Frontier

end Labyrinth

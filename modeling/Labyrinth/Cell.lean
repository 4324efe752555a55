/-!
# Cells

A cell is a place on the floor: `x` grows to the east and `z` to the south. Two cells are adjacent
if they differ by one along one axis.
-/

namespace Labyrinth

structure Cell where
  x : Int
  z : Int
deriving DecidableEq, Hashable, Inhabited

namespace Cell

/-- The cell so many steps to the east and to the south. -/
def offset (c : Cell) (dx dz : Int) : Cell := ⟨c.x + dx, c.z + dz⟩

def Adjacent (a b : Cell) : Prop := (a.x - b.x).natAbs + (a.z - b.z).natAbs = 1

instance (a b : Cell) : Decidable (Adjacent a b) := inferInstanceAs (Decidable (_ = _))

/-- Cells are ordered by `x` first and by `z` second. -/
def Before (a b : Cell) : Prop := a.x < b.x ∨ a.x = b.x ∧ a.z < b.z

instance (a b : Cell) : Decidable (Before a b) := inferInstanceAs (Decidable (_ ∨ _))

/-- The four directions in the order in which every walk tries them. -/
def directions : List (Int × Int) := [(0, 1), (0, -1), (1, 0), (-1, 0)]

/-- The four cells beside a cell, open or not. -/
def neighbors (c : Cell) : List Cell := directions.map fun d => c.offset d.1 d.2

theorem Adjacent.symm {a b : Cell} (h : a.Adjacent b) : b.Adjacent a := by
  unfold Adjacent at *
  omega

theorem mem_neighbors {c n : Cell} : n ∈ c.neighbors ↔ c.Adjacent n := by
  obtain ⟨x, z⟩ := c
  obtain ⟨nx, nz⟩ := n
  simp only [neighbors, directions, offset, Adjacent, List.map_cons, List.map_nil, List.mem_cons,
    List.not_mem_nil, or_false, Cell.mk.injEq]
  omega

def text (c : Cell) : String := "(" ++ toString c.x ++ ", " ++ toString c.z ++ ")"

end Cell

/-! ## Coordinates of 32 bits -/

/-- What a number comes to in the 32 bits of a coordinate. -/
def wrap (n : Int) : Int := (n + 2147483648) % 4294967296 - 2147483648

/-- The coordinate that a count stands for. A count of `2 ^ 31` or more wraps around. -/
def coordinate (n : Nat) : Int := wrap n

theorem coordinate_of_lt {n : Nat} (h : n < 2147483648) : coordinate n = n := by
  unfold coordinate wrap; omega

/-- The cell that is left of a cell in coordinates of 32 bits. -/
def Cell.wrapped (c : Cell) : Cell := ⟨wrap c.x, wrap c.z⟩

/-- Both coordinates have 32 bits. -/
def Cell.Fits (c : Cell) : Prop := c.wrapped = c

instance (c : Cell) : Decidable c.Fits := inferInstanceAs (Decidable (_ = _))

end Labyrinth

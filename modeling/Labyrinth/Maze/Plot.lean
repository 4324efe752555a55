import Labyrinth.Cell

/-!
# Plots

A plot is a square with a start cell in which a maze can be carved. Its size is odd and at least
five. Its start lies inside the outer ring and has odd coordinates.
-/

namespace Labyrinth

inductive PlotError where
  | size (size : Nat)
  | start (cell : Cell) (size : Nat)
deriving DecidableEq

def PlotError.message : PlotError → String
  | .size n => "Maze size must be odd and at least 5, got " ++ toString n
  | .start c n =>
    "Start cell " ++ c.text ++ " must be an interior cell with odd coordinates in a " ++
      toString n ++ "x" ++ toString n ++ " maze"

structure Plot where
  size : Nat
  start : Cell
deriving DecidableEq

namespace Plot

def minSize : Nat := 5

/-- The size is odd and large enough. -/
def GoodSize (size : Nat) : Prop := minSize ≤ size ∧ size % 2 = 1

instance (size : Nat) : Decidable (GoodSize size) := inferInstanceAs (Decidable (_ ∧ _))

/-- The cell lies inside the outer ring. The size counts as a coordinate, which can wrap around. -/
def Interior (size : Nat) (c : Cell) : Prop :=
  0 < c.x ∧ 0 < c.z ∧ c.x < coordinate size - 1 ∧ c.z < coordinate size - 1

instance (size : Nat) (c : Cell) : Decidable (Interior size c) :=
  inferInstanceAs (Decidable (_ ∧ _ ∧ _ ∧ _))

/-- The cell lies inside the outer ring and has odd coordinates. -/
def GoodStart (size : Nat) (c : Cell) : Prop := Interior size c ∧ c.x % 2 = 1 ∧ c.z % 2 = 1

instance (size : Nat) (c : Cell) : Decidable (GoodStart size c) :=
  inferInstanceAs (Decidable (_ ∧ _ ∧ _))

/-- A plot with a start of its own. The size is judged first. -/
def withStart (size : Nat) (start : Cell) : Except PlotError Plot :=
  if ¬ GoodSize size then .error (.size size)
  else if ¬ GoodStart size start then .error (.start start size)
  else .ok ⟨size, start⟩

/-- A plot with the standard start. -/
def ofSize (size : Nat) : Except PlotError Plot := withStart size ⟨1, 1⟩

/-- The corner opposite to the standard start. The size counts as a coordinate here too. -/
def defaultEnd (p : Plot) : Cell :=
  let last := coordinate p.size - 2
  ⟨last, last⟩

end Plot

end Labyrinth

/-!
# Numbers in text

A number is written with decimal digits, of which there has to be one at least. Zeros in front are
allowed, and so is a plus sign.
-/

namespace Labyrinth.Text

/-- The number that decimal digits stand for. -/
def digitsValue (ds : List Char) : Nat := ds.foldl (fun n d => n * 10 + (d.toNat - 48)) 0

def plain? (ds : List Char) : Option Nat :=
  if !ds.isEmpty && ds.all Char.isDigit then some (digitsValue ds) else none

def unsigned? (bound : Nat) (s : String) : Option Nat :=
  let n := match s.toList with
    | '+' :: ds => plain? ds
    | ds => plain? ds
  n.filter (decide <| · < bound)

/-- A number below `bound` that may also be written as the negative of zero. -/
def unsignedOrMinusZero? (bound : Nat) (s : String) : Option Nat :=
  match s.toList with
  | '-' :: ds => (plain? ds).filter (· == 0)
  | _ => unsigned? bound s

end Labyrinth.Text

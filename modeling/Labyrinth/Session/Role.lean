/-!
# Roles

The roles of a mission are numbered. Role 0 creates the session and the others join it.
-/

namespace Labyrinth

structure Role where
  number : Nat
deriving DecidableEq, Hashable, Inhabited

namespace Role

def creator : Role := ⟨0⟩

def isCreator (r : Role) : Bool := decide (r.number = 0)

/-- The first 26 roles are named by letters, the others by their number. -/
def agentName (r : Role) : String :=
  if r.number < 26 then "Agent" ++ String.singleton (Char.ofNat (65 + r.number))
  else "Agent" ++ toString r.number

def text (r : Role) : String := toString r.number

end Role

end Labyrinth

import Mathlib.Data.List.Basic

/-!
# Steps that may fail

Steps that are done one after another succeed if each of them does. Then the result is put together
from their results.
-/

namespace Labyrinth

variable {α β ε : Type} {l : List α}

section Filter

variable {p : α → Except ε Bool} {q : α → Bool}

end Filter

end Labyrinth

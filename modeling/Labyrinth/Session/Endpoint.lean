/-!
# Endpoints

A client of a session listens on an endpoint. A pool lists endpoints in order, each of them once.
-/

namespace Labyrinth

structure Endpoint where
  host : String
  port : Nat
deriving DecidableEq, Inhabited

namespace Endpoint

def onThisMachine (port : Nat) : Endpoint := ⟨"127.0.0.1", port⟩

def text (e : Endpoint) : String := e.host ++ ":" ++ toString e.port

end Endpoint

/-- The endpoints of a launch. `ofList` lets none come twice. -/
structure Pool where
  endpoints : List Endpoint
deriving DecidableEq, Inhabited

namespace Pool

/-- Puts an endpoint at the end unless it is there already. -/
def add (p : Pool) (e : Endpoint) : Pool :=
  if e ∈ p.endpoints then p else ⟨p.endpoints ++ [e]⟩

/-- Of endpoints that occur more than once the first one stays. -/
def ofList (es : List Endpoint) : Pool := es.foldl add ⟨[]⟩

theorem mem_add {p : Pool} {a e : Endpoint} :
    e ∈ (p.add a).endpoints ↔ e ∈ p.endpoints ∨ e = a := by
  unfold add
  split
  · constructor
    · exact Or.inl
    · rintro (h | rfl)
      · exact h
      · assumption
  · rw [List.mem_append, List.mem_singleton]

theorem nodup_add {p : Pool} (h : p.endpoints.Nodup) (a : Endpoint) :
    (p.add a).endpoints.Nodup := by
  unfold add
  split
  · exact h
  · rw [List.nodup_append]
    refine ⟨h, List.pairwise_singleton _ a, ?_⟩
    intro x hx y hy hxy
    rw [List.mem_singleton] at hy
    subst hxy hy
    contradiction

def size (p : Pool) : Nat := p.endpoints.length

/-- Looks at each endpoint once. What is found only informs and stops nobody from joining. -/
def probe (p : Pool) (answers : Endpoint → Bool) : List (Endpoint × Bool) :=
  p.endpoints.map fun e => (e, answers e)

end Pool

end Labyrinth

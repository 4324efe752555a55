import Labyrinth.Session.Observation
import Labyrinth.Session.Role
import Labyrinth.Time.Calendar

/-!
# Snapshots

A snapshot says where an agent was at a time. It comes from an observation of the engine or, without
one, from the plan.
-/

namespace Labyrinth

structure Snapshot where
  role : Role
  cell : Cell
  /-- Known from an observation only. -/
  yaw : Option Float32
  /-- In milliseconds. -/
  updatedAt : Nat

namespace Snapshot

/-- A snapshot for want of an observation. -/
def planned (role : Role) (cell : Cell) (now : Nat) : Snapshot := ⟨role, cell, none, now⟩

def observed (role : Role) (o : Observation) (now : Nat) : Snapshot :=
  ⟨role, o.cell, some o.yaw, now⟩

def agent (s : Snapshot) : String := s.role.agentName

def cellJson (c : Cell) : Json := .object [("x", .int c.x), ("z", .int c.z)]

/-- The snapshot with its time on a clock that stood at `epoch` when time was zero for the
snapshots. -/
def json (epoch : Nat) (s : Snapshot) : Json :=
  .object [("role", .int s.role.number), ("agent", .text s.agent), ("cell", cellJson s.cell),
    ("yaw", Json.ofOption .single s.yaw),
    ("updated_at", .text (Calendar.timestamp (epoch + s.updatedAt)))]

end Snapshot

end Labyrinth

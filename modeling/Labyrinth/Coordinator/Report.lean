import Labyrinth.Error
import Labyrinth.Json.Basic

/-!
# Reports

What a coordinator hands back when it has ended: how it ended, which stages it went through, and
what it had done by then.
-/

namespace Labyrinth

namespace Coordinator

/-- How the mission of a role ended. -/
inductive Outcome where
  | completed
  | joinTimeout
  | aborted
  | cancelled
deriving DecidableEq, Inhabited

def Outcome.name : Outcome → String
  | .completed => "Completed"
  | .joinTimeout => "JoinTimeout"
  | .aborted => "AbortedError"
  | .cancelled => "Cancelled"

/-- The stages of a mission in their order. Not every mission enters all of them. -/
inductive Stage where
  | probing
  | joining
  | awaitingBegin
  | active
  | awaitingEnd
  | terminated (outcome : Outcome)
deriving DecidableEq

def Stage.json : Stage → Json
  | .probing => .text "Probing"
  | .joining => .text "Joining"
  | .awaitingBegin => .text "AwaitingBegin"
  | .active => .text "Active"
  | .awaitingEnd => .text "AwaitingEnd"
  | .terminated o => .object [("Terminated", .text o.name)]

end Coordinator

open Coordinator in
structure Report where
  role : Role
  outcome : Outcome
  /-- The stages in order. The last one is the end. -/
  stages : List Stage
  joinAttempts : Nat
  commandsSent : Nat
  elapsed : Duration
  /-- What went wrong, unless the mission was completed. -/
  failure : Option MissionError
deriving DecidableEq

namespace Report

/-- The report of a coordinator that never came back. -/
def lost (role : Role) (e : MissionError) : Report :=
  ⟨role, .aborted, [.terminated .aborted], 0, 0, ⟨0⟩, some e⟩

def reached (r : Report) (s : Coordinator.Stage) : Bool := decide (s ∈ r.stages)

def durationJson (d : Duration) : Json :=
  .object [("secs", .int d.seconds), ("nanos", .int d.subsecond)]

def json (r : Report) : Json :=
  .object [("role", .int r.role.number), ("outcome", .text r.outcome.name),
    ("states", .list (r.stages.map Coordinator.Stage.json)),
    ("join_attempts", .int r.joinAttempts), ("commands_sent", .int r.commandsSent),
    ("elapsed", durationJson r.elapsed),
    ("error", Json.ofOption (fun e => .text e.message) r.failure)]

end Report

end Labyrinth

import Labyrinth.Timeline.World

/-!
# Launches

A launch runs one coordinator for each role in one session. Role 0 starts first and the others start
together after a stagger, or as soon as the launch is cancelled.
-/

namespace Labyrinth

open Coordinator

namespace Launch

/-- How many roles there are, and how much later than role 0 the others start. -/
structure Settings where
  roles : Nat
  stagger : Nat
  coordinator : Coordinator.Settings
deriving DecidableEq, Inhabited

def Settings.standard : Settings := ⟨2, 5000, .standard⟩

end Launch

/-- A launch before it runs. -/
structure Launch where
  settings : Launch.Settings
  session : SessionId
  sceneRoles : Nat
  pool : Pool
  plans : List (Role × List Action)
  cancellation : Cancellation

namespace Launch

def roles (l : Launch) : List Role := (List.range l.settings.roles).map Role.mk

def hosts {η : Type} (l : Launch) (host : Role → η) : List (Role × η) :=
  l.roles.map fun r => (r, host r)

/-- When a role starts. A cancellation cuts the stagger short and does not stop the start. -/
def startTime (l : Launch) (r : Role) : Nat :=
  if r.isCreator then 0 else (l.cancellation.nap 0 l.settings.stagger).wokenAt

/-- Makes the hosts of so many roles from a number on, each when its role starts. Before role 1 the
launch sleeps out the stagger. -/
def musterFrom {τ η : Type} (l : Launch) (make : Role → StateM τ η) (number now : Nat) :
    Nat → StateM τ (List (Role × Nat × η))
  | 0 => return []
  | left + 1 => do
    let now :=
      if number = 1 then (l.cancellation.nap now l.settings.stagger).wokenAt else now
    let host ← make ⟨number⟩
    let rest ← l.musterFrom make (number + 1) now left
    return (⟨number⟩, now, host) :: rest

/-- All roles with their starts and their hosts. What makes the hosts may keep a state of its own. -/
def muster {τ η : Type} (l : Launch) (make : Role → StateM τ η) :
    StateM τ (List (Role × Nat × η)) :=
  l.musterFrom make 0 0 l.settings.roles

/-- The brief of a role. All roles have the same settings, and a plan only if they navigate. -/
def brief (l : Launch) (tracked : Bool) (r : Role) : Brief :=
  ⟨r, l.session, l.sceneRoles, l.pool, l.settings.coordinator, l.plans.lookup r, tracked⟩

/-- The timeline at the start, in surroundings of any kind. -/
def timeline {ω π : Type} (l : Launch) (tracked : Bool) (world : ω) : Timeline ω π where
  now := 0
  world
  tracks := l.roles.map fun r => .starting (l.brief tracked r) (l.startTime r) r.number
  waits := l.settings.roles

/-- Runs all roles in the world of a mission, if the fuel lasts. -/
def run (l : Launch) (w : World) (fuel : Nat) : Option (Timeline World World.Pending) :=
  Timeline.run World.surroundings l.cancellation fuel (l.timeline w.board.isSome w)

/-! ## What came of it -/

def allCompleted (rs : List Report) : Bool := rs.all fun r => decide (r.outcome = .completed)

/-- The roles whose missions ended in a certain way. -/
def rolesWith (rs : List Report) (o : Outcome) : List Role :=
  (rs.filter fun r => decide (r.outcome = o)).map Report.role

end Launch

end Labyrinth

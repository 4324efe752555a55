import Labyrinth.Engine.Host

/-!
# The engine in use

Hosts use the engine one call after another. A join may also run beside the other calls: then the
creation that it started goes on while time passes.
-/

namespace Labyrinth.Engine

/-- A creation that goes on, with the time when it is done. -/
structure Creation where
  host : Nat
  session : SessionId
  due : Nat
deriving DecidableEq

/-- A join that runs beside the other calls. -/
inductive Joining where
  | creating (creation : Creation)
  | answered (answer : Except JoinError Unit)

def Joining.creation? : Joining → Option Creation
  | .creating c => some c
  | .answered _ => none

def Joining.answer? : Joining → Option (Except JoinError Unit)
  | .creating _ => none
  | .answered a => some a

/-- An engine with the hosts that use it and a clock. -/
structure Usage where
  now : Nat
  engine : Engine
  hosts : List Host
  sceneRoles : Nat
  /-- The joins whose answers have not been collected, oldest first. -/
  side : List Joining

namespace Usage

def ofEngine (e : Engine) (sceneRoles : Nat) : Usage := ⟨0, e, [], sceneRoles, []⟩

/-- Finishes a creation at the time it was due. -/
def finish (u : Usage) (c : Creation) : Except JoinError Unit × Usage :=
  let (a, engine) := u.engine.finishCreation c.session c.due
  (a, { u with engine, hosts := u.hosts.modify c.host (·.afterJoin c.session a) })

/-- Finishes a join whose creation is due by the given time. -/
def finishJoin (u : Usage) (time : Nat) : Joining → Joining × Usage
  | .answered a => (.answered a, u)
  | .creating c =>
    if c.due ≤ time then
      let (a, u) := u.finish c
      (.answered a, u)
    else (.creating c, u)

def finishJoins (u : Usage) (time : Nat) : List Joining → List Joining × Usage
  | [] => ([], u)
  | j :: js =>
    let (j, u) := u.finishJoin time j
    let (js, u) := u.finishJoins time js
    (j :: js, u)

/-- Finishes what runs beside the other calls and is due by the given time. -/
def finishDue (u : Usage) (time : Nat) : Usage :=
  let (side, u) := u.finishJoins time u.side
  { u with side }

/-- Lets time pass. It never goes back. -/
def passTo (u : Usage) (time : Nat) : Usage := { u.finishDue time with now := max u.now time }

def addHost (u : Usage) (r : Role) : Usage := { u with hosts := u.hosts ++ [.ofRole r] }

/-! ## Joining -/

/-- Starts a join. Its answer is noted by the host unless a creation has to be finished first. -/
def startJoin (u : Usage) (host : Nat) (r : Role) (id : SessionId) (poolSize : Nat) :
    Joining × Usage :=
  match u.engine.join u.sceneRoles poolSize r id u.now with
  | (.answered a, engine) =>
    (.answered a, { u with engine, hosts := u.hosts.modify host (·.afterJoin id a) })
  | (.creating, engine) =>
    (.creating ⟨host, id, u.now + u.engine.options.creationLatency⟩, { u with engine })

/-- A join that is waited for at once. -/
def join (u : Usage) (host : Nat) (r : Role) (id : SessionId) (poolSize : Nat) :
    Except JoinError Unit × Usage :=
  match u.startJoin host r id poolSize with
  | (.answered a, u) => (a, u)
  | (.creating c, u) => (u.passTo c.due).finish c

/-- A join that runs beside the other calls. A creation that takes no time is finished at once. -/
def joinAside (u : Usage) (host : Nat) (r : Role) (id : SessionId) (poolSize : Nat) : Usage :=
  let (j, u) := u.startJoin host r id poolSize
  { u with side := u.side ++ [j] }.finishDue u.now

/-- Waits for the oldest join that was not waited for. Creations that are due at one time are
finished in the order in which they were started. -/
def collect (u : Usage) : Option (Except JoinError Unit) × Usage :=
  let u := match u.side.head? >>= Joining.creation? with
    | none => u
    | some c => u.passTo c.due
  (u.side.head? >>= Joining.answer?, { u with side := u.side.tail })

/-! ## Other calls -/

def status (u : Usage) (host : Nat) : Option (Except String Status) × Usage :=
  match u.hosts[host]? with
  | none => (none, u)
  | some h =>
    let (a, engine) := h.status u.engine u.now
    (some a, { u with engine })

def send (u : Usage) (host : Nat) (token : String) : Option (Except String Unit) × Usage :=
  match u.hosts[host]? with
  | none => (none, u)
  | some h =>
    let (a, engine) := h.send u.engine token u.now
    (some a, { u with engine })

def observe (u : Usage) (host : Nat) : Option Observation :=
  u.hosts[host]? >>= fun h => h.observe u.engine

end Usage

end Labyrinth.Engine

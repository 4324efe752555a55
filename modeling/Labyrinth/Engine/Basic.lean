import Labyrinth.Error
import Labyrinth.Grid.Basic
import Labyrinth.Scene.Spawn
import Labyrinth.Session.Endpoint
import Labyrinth.Session.Identifier
import Labyrinth.Session.Observation
import Std.Data.HashMap

/-!
# The simulated engine

The engine keeps sessions by their identifier. Role 0 creates a session, which takes a while, and
the session is not available before that. The other roles then join it. It begins when all roles of
its scene are there. It ends when a role quits or when its time is up.
-/

namespace Labyrinth

namespace Engine

/-- How long the creation of a session takes, and how long a session may run. -/
structure Options where
  creationLatency : Nat
  timeLimit : Option Nat
deriving DecidableEq, Inhabited

def Options.standard : Options := ⟨0, none⟩

/-! ## Sessions -/

/-- A session from its creation on. It is kept when it has ended. -/
structure Session where
  /-- How many roles have to be there for the session to begin. -/
  expected : Nat
  available : Bool
  /-- The agents in the order in which they joined. -/
  agents : List (Role × Pose)
  begunAt : Option Nat
  /-- A role has quit, or the time was noticed to be up. -/
  ended : Bool

namespace Session

/-- A session that is being created. -/
def ofExpected (expected : Nat) : Session := ⟨expected, false, [], none, false⟩

def agent? (s : Session) (r : Role) : Option Pose := s.agents.lookup r

/-- The time of the session is up. It runs from the beginning on, not from the creation. -/
def isOver (s : Session) (limit : Option Nat) (now : Nat) : Bool :=
  match s.begunAt, limit with
  | some begun, some limit => decide (limit ≤ now - begun)
  | _, _ => false

/-- Notices that the time is up. There is no clock that ends a session by itself. -/
def checkTime (s : Session) (limit : Option Nat) (now : Nat) : Session :=
  { s with ended := s.ended || s.isOver limit now }

/-- The session has begun and not ended. The time has to be checked before. -/
def isRunning (s : Session) : Bool := s.begunAt.isSome && !s.ended

/-- Takes in an agent. The last one makes the session begin. -/
def enrol (s : Session) (r : Role) (p : Pose) (now : Nat) : Session :=
  let agents := s.agents.filter (·.1 != r) ++ [(r, p)]
  { s with
    agents
    begunAt := s.begunAt <|> if s.expected ≤ agents.length then some now else none }

def setPose (s : Session) (r : Role) (p : Pose) : Session :=
  { s with agents := s.agents.map fun a => if a.1 = r then (r, p) else a }

end Session

end Engine

open Engine in
/-- The maze and the sessions in it. All sessions share the maze, and none shares an agent. -/
structure Engine where
  grid : Grid
  start : Cell
  finish : Cell
  options : Options
  sessions : Std.HashMap SessionId Session

namespace Engine

def ofMaze (grid : Grid) (start finish : Cell) (options : Options) : Engine :=
  ⟨grid, start, finish, options, ∅⟩

def session? (e : Engine) (id : SessionId) : Option Session := e.sessions[id]?

def setSession (e : Engine) (id : SessionId) (s : Session) : Engine :=
  { e with sessions := e.sessions.insert id s }

def agentCell (e : Engine) (id : SessionId) (r : Role) : Option Cell :=
  (e.session? id >>= (·.agent? r)).map Pose.cell

/-- Where an agent of a role is put. -/
def spawn (e : Engine) (r : Role) : Pose := r.spawn e.start e.finish

/-! ## Joining -/

/-- What comes of a join at once. A creation has to be finished later. -/
inductive JoinStep where
  | answered (answer : Except JoinError Unit)
  | creating

/-- Starts the creation of a session, so that a second one is refused from then on. -/
def create (e : Engine) (sceneRoles : Nat) (id : SessionId) : JoinStep × Engine :=
  match e.session? id with
  | some _ => (.answered (.error (.conflict id.text)), e)
  | none => (.creating, e.setSession id (.ofExpected sceneRoles))

/-- Makes a session available and lets its creator in. -/
def finishCreation (e : Engine) (id : SessionId) (now : Nat) : Except JoinError Unit × Engine :=
  match e.session? id with
  | none => (.error (.transport ("session '" ++ id.text ++ "' vanished during creation")), e)
  | some s =>
    (.ok (), e.setSession id ({ s with available := true }.enrol .creator (e.spawn .creator) now))

/-- Lets a role into a session that is available. -/
def attach (e : Engine) (r : Role) (id : SessionId) (now : Nat) : Except JoinError Unit × Engine :=
  match e.session? id with
  | none => (.error (.notYetAvailable id.text), e)
  | some s =>
    if !s.available then (.error (.notYetAvailable id.text), e)
    else if (s.agent? r).isSome then
      (.error (.conflict (id.text ++ " (role " ++ r.text ++ " already joined)")), e)
    else (.ok (), e.setSession id (s.enrol r (e.spawn r) now))

/-- A join of a role, with the size of the pool and the number of roles in the scene. -/
def join (e : Engine) (sceneRoles poolSize : Nat) (r : Role) (id : SessionId) (now : Nat) :
    JoinStep × Engine :=
  if poolSize < sceneRoles then (.answered (.error .noFreeClient), e)
  else if sceneRoles ≤ r.number then
    (.answered (.error (.invalidDescriptor ("no agent section for role " ++ r.text))), e)
  else if r.isCreator then e.create sceneRoles id
  else
    let (answer, e) := e.attach r id now
    (.answered answer, e)

/-! ## A joined role -/

/-- The session with its time checked, or a message that it is gone. -/
def current (e : Engine) (id : SessionId) (now : Nat) : Except String Session :=
  match e.session? id with
  | none => .error ("session '" ++ id.text ++ "' is gone")
  | some s => .ok (s.checkTime e.options.timeLimit now)

/-- Asking for the status of a session checks its time. -/
def status (e : Engine) (id : SessionId) (now : Nat) : Except String Status × Engine :=
  match e.current id now with
  | .error reason => (.error reason, e)
  | .ok s => (.ok ⟨s.begunAt.isSome, s.isRunning⟩, e.setSession id s)

/-- The pose after a command. An agent does not move onto a cell that is not open. -/
def moved (e : Engine) (p : Pose) (c : Command) : Pose :=
  let q := p.apply c
  if e.grid.isOpen q.cell then q else p

/-- What a token does in a running session: it ends it, moves the agent of its sender, or is
refused. -/
def obey (e : Engine) (s : Session) (r : Role) (id : SessionId) (token : String) :
    Except String Unit × Session :=
  if token = Command.quitToken then (.ok (), { s with ended := true })
  else match Command.ofToken? token with
    | none => (.error ("unknown command '" ++ token ++ "'"), s)
    | some c =>
      match s.agent? r with
      | none => (.error ("role " ++ r.text ++ " has no agent in '" ++ id.text ++ "'"), s)
      | some p => (.ok (), s.setPose r (e.moved p c))

/-- Sends a command. A session that is not running accepts and ignores it. -/
def send (e : Engine) (r : Role) (id : SessionId) (token : String) (now : Nat) :
    Except String Unit × Engine :=
  match e.current id now with
  | .error reason => (.error reason, e)
  | .ok s =>
    if s.isRunning then
      let (answer, s) := e.obey s r id token
      (answer, e.setSession id s)
    else (.ok (), e.setSession id s)

/-- The middle of the cells with a coordinate. -/
def middle (v : Int) : Float := Float.ofInt v + 0.5

/-- What a role sees: itself and the other agents. -/
def observe (e : Engine) (r : Role) (id : SessionId) : Option Observation := do
  let s ← e.session? id
  let p ← s.agent? r
  return {
    x := middle p.cell.x
    z := middle p.cell.z
    yaw := (Float.ofInt p.heading.yaw).toFloat32
    life := 20
    entities := (s.agents.filter (·.1 != r)).map fun a =>
      ⟨a.1.agentName, middle a.2.cell.x, middle a.2.cell.z⟩ }

end Engine

end Labyrinth

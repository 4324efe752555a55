import Labyrinth.CommandLine.Basic
import Labyrinth.Config.Json
import Labyrinth.Grid.Text
import Labyrinth.Maze.Carving
import Labyrinth.Route.Search

/-!
# Missions

A mission carves a maze, plans a route from its start to its end, and launches its roles in the
simulated engine. It fails if the configuration is wrong, if there is no route, or if some role does
not complete its part.
-/

namespace Labyrinth

namespace MissionError

/-- The causes behind an error, from the nearest one on. -/
def causes : MissionError → List String
  | .maze cause => [cause.message]
  | .plan cause => [cause.message]
  | .join cause => [cause.message]
  | .io reason => [reason]
  | .serialization cause => [cause.message]
  | _ => []

end MissionError

namespace Mission

/-- Why a mission ended badly: what was being done, and the causes of the failure. -/
structure Failure where
  message : String
  causes : List String
deriving DecidableEq

namespace Failure

def ofError (e : MissionError) : Failure := ⟨e.message, e.causes⟩

def within (purpose : String) (e : MissionError) : Failure := ⟨purpose, e.message :: e.causes⟩

/-- The message and its causes, which are numbered if there are several. -/
def text (f : Failure) : String :=
  match f.causes with
  | [] => f.message
  | [cause] => f.message ++ "\n\nCaused by:\n    " ++ cause
  | causes => f.message ++ "\n\nCaused by:" ++ String.join (causes.zipIdx.map fun (cause, i) =>
      "\n    " ++ toString i ++ ": " ++ cause)

end Failure

/-- What a mission prints, and its failure if it has one. -/
structure Result where
  output : String
  failure : Option Failure
deriving DecidableEq

/-- The bytes of the file at a path, or why it cannot be read. -/
abbrev Files := String → Except String ByteArray

def loadConfig (files : Files) (path : String) : Except MissionError Config :=
  match files path with
  | .error reason => .error (.io reason)
  | .ok bytes => Config.ofBytes bytes

/-- The command line overrides the file. Probing can be asked for by either. -/
def overridden (c : Config) (a : Arguments) : Config :=
  let c := { c with
    seed := a.seed <|> c.seed
    mazeSize := a.size.getD c.mazeSize
    stagger := a.stagger.getD c.stagger }
  let c := match a.joinDeadlineSeconds with
    | some s => c.withJoinDeadlineSeconds s
    | none => c
  { c with probeEndpoints := c.probeEndpoints || a.probe }

/-- The configuration for the arguments, which is valid if there is one. -/
def configOf (files : Files) (a : Arguments) : Except Failure Config := do
  let c ← match a.config with
    | none => .ok Config.standard
    | some path =>
      (loadConfig files path).mapError (.within ("Failed to load config from " ++ path))
  let c := overridden c a
  c.validate.mapError (.within "Invalid configuration")
  return c

/-! ## Running -/

/-- A mission that is ready to be planned: its configuration, and the maze on its plot. -/
structure Setup where
  config : Config
  plot : Plot
  grid : Grid
deriving DecidableEq

/-- Carves the maze. A seed is drawn from `drawn` if there is none. -/
def setup (c : Config) (drawn : UInt64) : Except Failure Setup := do
  let p ← c.plot.mapError .ofError
  let seed := match c.seed with
    | some s => UInt64.ofNat s
    | none => drawn
  return ⟨c, p, p.carveSeeded seed⟩

namespace Setup

/-- The route from the start to the default end, empty if there is none. -/
def path (s : Setup) : List Cell := Route.shortest s.grid s.plot.start s.plot.defaultEnd

/-- The plans of the navigating roles. Of two plans for one role the last one counts. -/
def plans (s : Setup) : Except BrokenStep (List (Role × List Action)) :=
  s.config.navigators.reverse.mapM fun r =>
    (r.plan s.path s.plot.start s.plot.defaultEnd).map fun p => (r, p)

/-- A launch with a scene of as many agents as there are roles. Nobody cancels it. -/
def launch (s : Setup) (session : SessionId) (plans : List (Role × List Action)) : Launch :=
  ⟨s.config.launch, session, s.config.roles, s.config.pool, plans, none⟩

/-- The world in which a launch takes place: every role has a host of the engine. -/
def world (s : Setup) (network : Network) (l : Launch) : World where
  engine := .ofMaze s.grid s.plot.start s.plot.defaultEnd s.config.engine
  hosts := l.hosts fun r => .engine (.ofRole r)
  board := some (.ofRoles s.config.roles)
  network

def rolesText (rs : List Role) : String :=
  "[" ++ ", ".intercalate (rs.map fun r => "AgentRole(" ++ r.text ++ ")") ++ "]"

/-- The failure of a launch in which not all roles completed their part. -/
def launchFailure? (session : SessionId) (reports : List Report) : Option Failure :=
  if Launch.allCompleted reports then none
  else some ⟨"Session '" ++ session.text ++ "' did not complete: timed out " ++
    rolesText (Launch.rolesWith reports .joinTimeout) ++ ", aborted " ++
    rolesText (Launch.rolesWith reports .aborted), []⟩

/-- Plans and launches. Without enough fuel nothing is known of the end. -/
def run (s : Setup) (network : Network) (session : SessionId) (fuel : Nat) :
    Option (Except Failure (List Report)) :=
  if s.path.isEmpty then
    some (.error (.ofError (.noRoute s.plot.start s.plot.defaultEnd)))
  else match s.plans with
    | .error b => some (.error (.ofError (.plan b)))
    | .ok plans =>
      let l := s.launch session plans
      (l.run (s.world network l) fuel).map fun tl => .ok tl.reports

end Setup

def run (files : Files) (drawn : UInt64) (network : Network) (session : SessionId) (fuel : Nat)
    (a : Arguments) : Option Result :=
  match configOf files a >>= (setup · drawn) with
  | .error f => some ⟨"", some f⟩
  | .ok s =>
    let output := if a.printMaze then s.grid.text ++ "\n" else ""
    (s.run network session fuel).map fun
      | .error f => ⟨output, some f⟩
      | .ok reports => ⟨output, Setup.launchFailure? session reports⟩

end Mission

end Labyrinth

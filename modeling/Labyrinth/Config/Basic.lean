import Labyrinth.Engine.Basic
import Labyrinth.Launch.Basic
import Labyrinth.Maze.Plot

/-!
# Configurations

A configuration holds all numbers that a mission needs. Times are in milliseconds.
-/

namespace Labyrinth

/-- The settings of a mission, as a file gives them. -/
structure Config where
  endpoints : List Endpoint
  roles : Nat
  joinDeadline : Nat
  joinInterval : Nat
  beginDeadline : Nat
  beginPoll : Nat
  endPoll : Nat
  stagger : Nat
  commandPacing : Nat
  /-- Look whether the endpoints can be reached before joining. -/
  probeEndpoints : Bool
  probeTimeout : Nat
  mazeSize : Nat
  /-- Without a seed one is drawn at random. -/
  seed : Option Nat
  /-- The roles that walk the route. The others stay idle. -/
  navigatingRoles : List Nat
  timeLimit : Option Nat
  creationLatency : Nat
deriving DecidableEq

namespace Config

/-- What holds where a file gives nothing. -/
def standard : Config where
  endpoints := [.onThisMachine 10000, .onThisMachine 10001]
  roles := 2
  joinDeadline := 60000
  joinInterval := 1500
  beginDeadline := 60000
  beginPoll := 200
  endPoll := 500
  stagger := 5000
  commandPacing := 200
  probeEndpoints := false
  probeTimeout := 500
  mazeSize := 21
  seed := none
  navigatingRoles := [0]
  timeLimit := none
  creationLatency := 2000

/-! ## Validation -/

/-- The intervals that have to be positive, with their names. -/
def intervals (c : Config) : List (String × Nat) :=
  [("join_interval_ms", c.joinInterval), ("begin_poll_ms", c.beginPoll),
    ("end_poll_ms", c.endPoll)]

/-- The first thing that is wrong with a configuration. -/
def fault? (c : Config) : Option ConfigError :=
  if c.roles = 0 then some .noRoles
  else if c.endpoints = [] then some .noEndpoints
  else if ¬ Plot.GoodSize c.mazeSize then some (.mazeSize c.mazeSize)
  else match c.intervals.find? (·.2 == 0) with
    | some (name, _) => some (.notPositive name)
    | none => (c.navigatingRoles.find? (c.roles ≤ ·)).map (.navigatorOutside · c.roles)

/-- Refuses a configuration for its first fault. -/
def validate (c : Config) : Except MissionError Unit :=
  match c.fault? with
  | some e => .error (.invalidConfig e)
  | none => .ok ()

/-! ## What a configuration sets up -/

/-- The largest time that has 64 bits. -/
def maxTime : Nat := UInt64.size - 1

/-- Sets the deadline for joining in seconds. One that is too large becomes the largest one. -/
def withJoinDeadlineSeconds (c : Config) (seconds : Nat) : Config :=
  { c with joinDeadline := min (seconds * 1000) maxTime }

/-- The plot of the maze, which can fail even for a valid configuration. -/
def plot (c : Config) : Except MissionError Plot :=
  match Plot.ofSize c.mazeSize with
  | .ok p => .ok p
  | .error e => .error (.maze e)

def pool (c : Config) : Pool := .ofList c.endpoints

/-- The roles that have a plan. -/
def navigators (c : Config) : List Role := c.navigatingRoles.map Role.mk

/-- The settings of each coordinator. The wait for the end has no deadline. -/
def coordinator (c : Config) : Coordinator.Settings where
  probeTimeout := if c.probeEndpoints then some c.probeTimeout else none
  joining := ⟨c.joinInterval, some c.joinDeadline⟩
  beginning := ⟨c.beginPoll, some c.beginDeadline⟩
  ending := ⟨c.endPoll, none⟩
  pacing := c.commandPacing

def launch (c : Config) : Launch.Settings := ⟨c.roles, c.stagger, c.coordinator⟩

def engine (c : Config) : Engine.Options := ⟨c.creationLatency, c.timeLimit⟩

end Config

end Labyrinth

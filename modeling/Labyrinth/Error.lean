import Labyrinth.Json.Outline
import Labyrinth.Maze.Plot
import Labyrinth.Plan
import Labyrinth.Session.Role
import Labyrinth.Time.Duration

/-!
# What can go wrong

The causes for which a join or a whole mission fails, and the messages that tell of them.
-/

namespace Labyrinth

/-- Why a role was not let into a session. -/
inductive JoinError where
  | notYetAvailable (session : String)
  | noFreeClient
  | transport (reason : String)
  /-- The place in the session is taken. -/
  | conflict (session : String)
  | invalidDescriptor (reason : String)
deriving DecidableEq

namespace JoinError

/-- Whether it is worth trying again. The other errors do not go away. -/
def isRetriable : JoinError → Bool
  | .notYetAvailable _ | .noFreeClient | .transport _ => true
  | .conflict _ | .invalidDescriptor _ => false

def message : JoinError → String
  | .notYetAvailable session => "Session '" ++ session ++ "' is not available yet"
  | .noFreeClient => "No free client in the endpoint pool"
  | .transport reason => "Transport error: " ++ reason
  | .conflict session => "Session '" ++ session ++ "' already has a creator"
  | .invalidDescriptor reason => "Scene descriptor rejected: " ++ reason

end JoinError

/-- What can be wrong with a configuration. -/
inductive ConfigError where
  | noRoles
  | noEndpoints
  | mazeSize (size : Nat)
  | notPositive (name : String)
  | navigatorOutside (role roles : Nat)
  | other (reason : String)
deriving DecidableEq

def ConfigError.reason : ConfigError → String
  | .noRoles => "at least one role is required"
  | .noEndpoints => "endpoint list is empty"
  | .mazeSize size => "maze_size must be odd and at least 5, got " ++ toString size
  | .notPositive name => name ++ " must be positive"
  | .navigatorOutside role roles =>
    "navigating role " ++ toString role ++ " is outside 0.." ++ toString roles
  | .other reason => reason

def Json.Fault.message : Json.Fault → String
  | .ended => "the text ends too early"
  | .malformed => "the text is malformed"
  | .mismatched => "the text does not have the wanted shape"

/-- Why a mission, or the part of one role in it, failed. -/
inductive MissionError where
  | maze (cause : PlotError)
  | plan (cause : BrokenStep)
  | noRoute (start finish : Cell)
  | join (cause : JoinError)
  | joinTimeout (role : Role) (elapsed : Duration)
  | status (reason : String)
  | sessionStopped (sent total : Nat)
  | neverBegan
  | commandSend (command reason : String)
  | invalidConfig (cause : ConfigError)
  | io (reason : String)
  | serialization (cause : Json.Fault)
  | cancelled
  | taskFailed (role : Role)
  /-- The session outlived the wait for its end. -/
  | stillRunning (elapsed : Duration)
deriving DecidableEq

namespace MissionError

def message : MissionError → String
  | .maze cause => "Invalid maze configuration: " ++ cause.message
  | .plan cause => "Could not plan route: " ++ cause.message
  | .noRoute start finish =>
    "No route from " ++ start.text ++ " to " ++ finish.text ++ " in the generated maze"
  | .join cause => "Join failed: " ++ cause.message
  | .joinTimeout role elapsed => "Role " ++ role.text ++ " gave up joining after " ++ elapsed.text
  | .status reason => "Status query failed: " ++ reason
  | .sessionStopped sent total =>
    "Session stopped running after " ++ toString sent ++ " of " ++ toString total ++ " commands"
  | .neverBegan => "Session ended without ever beginning"
  | .commandSend command reason => "Command '" ++ command ++ "' could not be sent: " ++ reason
  | .invalidConfig cause => "Invalid configuration: " ++ cause.reason
  | .io reason => "Configuration I/O failed: " ++ reason
  | .serialization cause => "Serialization error: " ++ cause.message
  | .cancelled => "Cancelled"
  | .taskFailed role => "Coordinator task for role " ++ role.text ++ " panicked or was aborted"
  | .stillRunning elapsed =>
    "session still running " ++ elapsed.text ++ " after this role finished"

end MissionError

end Labyrinth

import Labyrinth.Text.Unsigned

/-!
# The server of the feed

The feed is served on a port until it is stopped. For the port the command line comes first, then
the environment, then the standard port. A value of the environment that is no port does not count.
-/

namespace Labyrinth.Feed

def standardPort : Nat := 3030

/-- The port to serve on, from the command line and the variable of the environment. -/
def port (given : Option Nat) (setting : Option String) : Nat :=
  (given <|> setting.bind (Text.unsigned? UInt16.size)).getD standardPort

inductive Serving where
  | stopped
  /-- The server never ran, because its port was taken. -/
  | refused
deriving DecidableEq

/-- Serves on a port that is free or taken. -/
def serve (taken : Bool) : Serving := if taken then .refused else .stopped

end Labyrinth.Feed

import Labyrinth.Heading
import Labyrinth.Text.Blank

/-!
# Commands

A command turns an agent by a quarter or moves it one cell forward. Commands travel as short tokens.
-/

namespace Labyrinth

/-- What an agent can be told to do. -/
inductive Command where
  | turnLeft
  | turnRight
  | moveForward
deriving DecidableEq, Inhabited

namespace Command

/-- What is sent for a command. -/
def token : Command → String
  | .turnLeft => "turn -1"
  | .turnRight => "turn 1"
  | .moveForward => "move 1"

/-- What is sent to end a session. It is no command to an agent. -/
def quitToken : String := "quit"

/-- Reads a token. Blanks around it do not count. -/
def ofToken? (token : String) : Option Command :=
  match Text.trimmed token with
  | "turn -1" => some .turnLeft
  | "turn 1" => some .turnRight
  | "move 1" => some .moveForward
  | _ => none

def name : Command → String
  | .turnLeft => "TurnLeft"
  | .turnRight => "TurnRight"
  | .moveForward => "MoveForward"

end Command

/-! ## Poses -/

/-- Where an agent stands and where it looks. -/
structure Pose where
  cell : Cell
  heading : Heading
deriving DecidableEq, Inhabited

namespace Pose

/-- The pose after a command, with nothing in the way. -/
def apply (p : Pose) : Command → Pose
  | .turnLeft => { p with heading := p.heading.left }
  | .turnRight => { p with heading := p.heading.right }
  | .moveForward => { p with cell := p.cell.offset p.heading.step.1 p.heading.step.2 }

def applyAll (p : Pose) (cs : List Command) : Pose := cs.foldl apply p

/-- The cell of the pose, then each cell that a move forward reaches. -/
def visited (p : Pose) : List Command → List Cell
  | [] => [p.cell]
  | .moveForward :: cs => p.cell :: (p.apply .moveForward).visited cs
  | c :: cs => (p.apply c).visited cs

end Pose

/-! ## Replays -/

/-- What came of some commands: the pose in the end, and the cells visited on the way to it. -/
structure Replay where
  pose : Pose
  visited : List Cell
deriving DecidableEq

/-- Carries out one more command. A coordinate that leaves its 32 bits comes in again at the other
end. -/
def Replay.obey (r : Replay) (c : Command) : Replay :=
  let moved := r.pose.apply c
  let pose := { moved with cell := moved.cell.wrapped }
  ⟨pose, if c = .moveForward then r.visited ++ [pose.cell] else r.visited⟩

/-- Carries out commands one after the other and keeps track of the cells. -/
def Pose.replay (p : Pose) (cs : List Command) : Replay := cs.foldl Replay.obey ⟨p, [p.cell]⟩

end Labyrinth

import Labyrinth.Scene.Drawing
import Labyrinth.Scene.Spawn

/-!
# Scene markup

The markup tells an engine how to build the world of a mission, where its agents start, and when it
has to end.
-/

namespace Labyrinth

namespace Drawing

def xmlAttribute (name value : String) : String := " " ++ name ++ "=\"" ++ value ++ "\""

def placeAttributes (digit : String) (p : Place) : String :=
  xmlAttribute ("x" ++ digit) (toString p.x) ++ xmlAttribute ("y" ++ digit) (toString p.y) ++
    xmlAttribute ("z" ++ digit) (toString p.z)

def Stroke.markup : Stroke → String
  | .block p b => "<DrawBlock" ++ placeAttributes "" p ++ xmlAttribute "type" b.name ++ "/>\n"
  | .cuboid p q b =>
    "<DrawCuboid" ++ placeAttributes "1" p ++ placeAttributes "2" q ++ xmlAttribute "type" b.name ++
      "/>\n"

end Drawing

structure Scene where
  drawing : Drawing
  roles : Nat
  /-- In milliseconds. -/
  timeLimit : Option Nat

namespace Scene

def agentMarkup (s : Scene) (r : Role) : String :=
  let p := r.spawn s.drawing.start s.drawing.finish
  "  <AgentSection mode=\"Survival\">\n    <Name>" ++ r.agentName ++
    "</Name>\n    <AgentStart>\n      <Placement x=\"" ++ toString p.cell.x ++ ".5\" y=\"" ++
    toString Drawing.level ++ ".0\" z=\"" ++ toString p.cell.z ++ ".5\" yaw=\"" ++
    toString p.heading.yaw ++ "\"/>\n    </AgentStart>\n    <AgentHandlers>\n" ++
    "      <DiscreteMovementCommands/>\n      <ObservationFromFullStats/>\n" ++
    "    </AgentHandlers>\n  </AgentSection>\n"

def timeLimitMarkup (s : Scene) : String :=
  match s.timeLimit with
  | none => ""
  | some limit => "\n      <ServerQuitFromTimeUp timeLimitMs=\"" ++ toString limit ++ "\"/>"

def header : String :=
  "<?xml version=\"1.0\" encoding=\"UTF-8\" standalone=\"no\" ?>\n" ++
    "<Mission xmlns=\"http://ProjectMalmo.microsoft.com\"" ++
    " xmlns:xsi=\"http://www.w3.org/2001/XMLSchema-instance\" forceWorldReset=\"true\">\n" ++
    "  <About>\n    <Summary>Multi-agent random maze</Summary>\n  </About>\n" ++
    "  <ServerSection>\n    <ServerInitialConditions>\n" ++
    "      <Time><StartTime>1</StartTime></Time>\n    </ServerInitialConditions>\n" ++
    "    <ServerHandlers>\n" ++
    "      <FlatWorldGenerator generatorString=\"3;7,220*1,5*3,2;3;,biome_1\"/>\n" ++
    "      <DrawingDecorator>\n"

def markup (s : Scene) : String :=
  header ++ String.join (s.drawing.ground.map fun c => "        " ++ c.markup) ++
    String.join (s.drawing.details.map (·.markup)) ++ "      </DrawingDecorator>" ++
    s.timeLimitMarkup ++ "\n    </ServerHandlers>\n  </ServerSection>\n" ++
    String.join ((List.range s.roles).map fun r => s.agentMarkup ⟨r⟩) ++ "</Mission>\n"

end Scene

end Labyrinth

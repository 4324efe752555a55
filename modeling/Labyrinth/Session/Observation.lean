import Labyrinth.Cell
import Labyrinth.Json.Basic
import Labyrinth.Json.Decoder

/-!
# Observations

What the engine reports about a session and about an agent in it.
-/

namespace Labyrinth

/-- Whether a session has begun, and whether it is still running. -/
structure Status where
  hasBegun : Bool
  isRunning : Bool
deriving DecidableEq, Inhabited

structure Entity where
  name : String
  x : Float
  z : Float

/-- What an agent sees. -/
structure Observation where
  x : Float
  z : Float
  yaw : Float32
  life : Float32
  entities : List Entity

namespace Observation

/-- The coordinate of the cell that holds a point. It is clamped to 32 bits. -/
def floorCoordinate (v : Float) : Int := v.floor.toInt32.toInt

def cell (o : Observation) : Cell := ⟨floorCoordinate o.x, floorCoordinate o.z⟩

/-! ## JSON -/

def entityJson (e : Entity) : Json :=
  .object [("name", .text e.name), ("x", .double e.x), ("z", .double e.z)]

def json (o : Observation) : Json :=
  .object [("XPos", .double o.x), ("ZPos", .double o.z), ("Yaw", .single o.yaw),
    ("Life", .single o.life), ("entities", .list (o.entities.map entityJson))]

open Json (Decoder)

def entityFields : List (Json.Field Entity) :=
  [.of "name" true Decoder.text fun v e => { e with name := v },
    .of "x" true Decoder.double fun v e => { e with x := v },
    .of "z" true Decoder.double fun v e => { e with z := v }]

def entityDecoder : Decoder Entity := Json.Record.decode entityFields ⟨"", 0, 0⟩

def fields : List (Json.Field Observation) :=
  [.of "XPos" true Decoder.double fun v o => { o with x := v },
    .of "ZPos" true Decoder.double fun v o => { o with z := v },
    .of "Yaw" true Decoder.single fun v o => { o with yaw := v },
    .of "Life" false Decoder.single fun v o => { o with life := v },
    .of "entities" false (Decoder.list entityDecoder) fun v o => { o with entities := v }]

def ofText (text : String) : Except Json.Fault Observation :=
  Json.decode (Json.Record.decode fields ⟨0, 0, 0, 0, []⟩) text

end Observation

end Labyrinth

import Labyrinth.Grid.Basic
import Labyrinth.Json.Basic
import Labyrinth.Json.Decoder

/-!
# Grids in JSON

A grid is written as its size and the list of its tiles, row by row. Reading does not compare the
two.
-/

namespace Labyrinth

def Tile.name : Tile → String
  | .wall => "Wall"
  | .floor => "Open"

def Tile.ofName? : String → Option Tile
  | "Wall" => some .wall
  | "Open" => some .floor
  | _ => none

@[simp] theorem Tile.ofName?_name (t : Tile) : ofName? t.name = some t := by cases t <;> rfl

namespace Grid

def json (g : Grid) : Json :=
  .object [("size", .int g.size), ("cells", .list (g.tiles.toList.map fun t => .text t.name))]

open Json (Decoder)

def fields : List (Json.Field Grid) :=
  [.of "size" true (Decoder.nat UInt64.size) fun v g => { g with size := v },
    .of "cells" true (Decoder.list (Decoder.oneOf Tile.ofName?)) fun v g =>
      { g with tiles := v.toArray }]

/-- Reads a grid. That the tiles are as many as its size asks for is not checked. -/
def ofJson (text : String) : Except Json.Fault Grid :=
  Json.decode (Json.Record.decode fields ⟨0, #[]⟩) text

end Grid

end Labyrinth

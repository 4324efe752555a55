import Labyrinth.Config.Json
import Labyrinth.Grid.Json
import Labyrinth.Proofs.Json.Records
import Labyrinth.Session.Identifier

/-!
# Values that come back from their text

Configurations, session identifiers and grids are what is read from the text in which they are
written. Their numbers have a fixed width, all else is arbitrary: hosts and identifiers may hold any
characters, and lists may be empty or long.
-/

namespace Labyrinth

open Json (Decoder Fills)

variable {e : Endpoint} {c : Config} {g : Grid}

/-! ## Endpoints -/

theorem Endpoint.reads (h : e.port < UInt16.size) : Endpoint.decoder.Reads e.json e := by
  have hfills : Fills Endpoint.fields [("host", .text e.host), ("port", .int e.port)] ⟨"", 0⟩ e :=
    .cons (Decoder.reads_text e.host) <| .cons (Decoder.reads_nat h) <| .nil e
  exact hfills.reads (by decide)

/-! ## Configurations -/

/-- The numbers of a configuration have the width of their fields. -/
structure Config.InRange (c : Config) : Prop where
  ports : ∀ e ∈ c.endpoints, e.port < UInt16.size
  roles : c.roles < UInt32.size
  joinDeadline : c.joinDeadline < UInt64.size
  joinInterval : c.joinInterval < UInt64.size
  beginDeadline : c.beginDeadline < UInt64.size
  beginPoll : c.beginPoll < UInt64.size
  endPoll : c.endPoll < UInt64.size
  stagger : c.stagger < UInt64.size
  commandPacing : c.commandPacing < UInt64.size
  probeTimeout : c.probeTimeout < UInt64.size
  mazeSize : c.mazeSize < UInt64.size
  seed : ∀ n ∈ c.seed, n < UInt64.size
  navigatingRoles : ∀ r ∈ c.navigatingRoles, r < UInt32.size
  timeLimit : ∀ n ∈ c.timeLimit, n < UInt64.size
  creationLatency : c.creationLatency < UInt64.size

namespace Config

theorem reads_natJson {n bound : Nat} (h : n < bound) : (Decoder.nat bound).Reads (natJson n) n :=
  Decoder.reads_nat h

theorem reads_optionJson {o : Option Nat} (h : ∀ n ∈ o, n < UInt64.size) :
    (Decoder.option number64).Reads (Json.ofOption natJson o) o :=
  Decoder.reads_option fun n hn => ⟨reads_natJson (h n hn), Json.noConfusion⟩

theorem reads (h : c.InRange) : (Json.Record.decode fields standard).Reads c.json c := by
  have hendpoints := Decoder.reads_list fun e he => Endpoint.reads (h.ports e he)
  have hnavigating : (Decoder.list number32).Reads (.list (c.navigatingRoles.map natJson)) _ :=
    Decoder.reads_list fun r hr => reads_natJson (h.navigatingRoles r hr)
  refine Fills.reads (.cons hendpoints <| .cons (reads_natJson h.roles) <|
    .cons (reads_natJson h.joinDeadline) <| .cons (reads_natJson h.joinInterval) <|
    .cons (reads_natJson h.beginDeadline) <| .cons (reads_natJson h.beginPoll) <|
    .cons (reads_natJson h.endPoll) <| .cons (reads_natJson h.stagger) <|
    .cons (reads_natJson h.commandPacing) <| .cons (Decoder.reads_bool c.probeEndpoints) <|
    .cons (reads_natJson h.probeTimeout) <| .cons (reads_natJson h.mazeSize) <|
    .cons (reads_optionJson h.seed) <| .cons hnavigating <|
    .cons (reads_optionJson h.timeLimit) <| .cons (reads_natJson h.creationLatency) <|
    .nil c) ?_
  decide

theorem ofBytes_toUTF8 {text : String} (h : ofText text = .ok c) : ofBytes text.toUTF8 = .ok c := by
  have htext : String.fromUTF8? text.toUTF8 = some text := dif_pos text.isValidUTF8
  simp only [ofBytes, htext, h]

end Config

/-! ## Session identifiers and grids -/

theorem SessionId.reads (s : SessionId) : SessionId.decoder.Reads s.json s :=
  (Decoder.reads_text s.text).map SessionId.mk

theorem Grid.reads (h : g.size < UInt64.size) :
    (Json.Record.decode Grid.fields ⟨0, #[]⟩).Reads g.json g := by
  have htiles := Decoder.reads_list fun t (_ : t ∈ g.tiles.toList) =>
    Decoder.reads_oneOf (Tile.ofName?_name t)
  exact Fills.reads (.cons (Decoder.reads_nat h) <| .cons htiles <| .nil g) (by decide)

/-- Configurations, session identifiers and grids are read back from their compact text. A file that
holds the text of a configuration is read as that configuration. -/
theorem json_roundTrip :
    (∀ c : Config, c.InRange → Config.ofText c.json.compact = .ok c ∧
      Config.ofBytes c.json.compact.toUTF8 = .ok c) ∧
    (∀ s : SessionId, Json.decode SessionId.decoder s.json.compact = .ok s) ∧
    ∀ g : Grid, g.size < UInt64.size → Grid.ofJson g.json.compact = .ok g := by
  refine ⟨fun c h => ?_, fun s => ?_, fun g h => ?_⟩
  · have htext : Config.ofText c.json.compact = .ok c := (Config.reads h).decode_compact
    exact ⟨htext, Config.ofBytes_toUTF8 htext⟩
  · exact (SessionId.reads s).decode_compact
  · exact (Grid.reads h).decode_compact

/-- The largest seed, and a host with quotes, control characters and letters of two scripts. -/
def Config.unusual : Config :=
  { Config.standard with
    endpoints := [⟨"a \"b\" \\ \n\t\x01\x1f größe 迷宮", 65535⟩, ⟨"", 0⟩]
    seed := some (UInt64.size - 1)
    navigatingRoles := [] }

theorem json_roundTrip_unusual :
    Config.unusual.InRange ∧ (Grid.filled 3).size < UInt64.size ∧
      Config.ofText Config.unusual.json.compact = .ok Config.unusual ∧
      Config.ofBytes Config.unusual.json.compact.toUTF8 = .ok Config.unusual ∧
      Grid.ofJson (Grid.filled 3).json.compact = .ok (Grid.filled 3) := by
  have hrange : Config.unusual.InRange := by constructor <;> decide
  obtain ⟨htext, hbytes⟩ := json_roundTrip.1 Config.unusual hrange
  exact ⟨hrange, by decide, htext, hbytes, json_roundTrip.2.2 (Grid.filled 3) (by decide)⟩

end Labyrinth

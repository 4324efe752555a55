import Labyrinth.Config.Basic
import Labyrinth.Json.Basic
import Labyrinth.Json.Decoder

/-!
# Configurations in JSON

A configuration is written as an object with all its members. In reading, members that are not there
keep their standard value and unknown ones are passed over.
-/

namespace Labyrinth

open Json (Decoder)

namespace Endpoint

def json (e : Endpoint) : Json := .object [("host", .text e.host), ("port", .int e.port)]

def fields : List (Json.Field Endpoint) :=
  [.of "host" true Decoder.text fun v e => { e with host := v },
    .of "port" true (Decoder.nat UInt16.size) fun v e => { e with port := v }]

def decoder : Decoder Endpoint := Json.Record.decode fields ⟨"", 0⟩

end Endpoint

namespace Config

def natJson (n : Nat) : Json := .int n

def json (c : Config) : Json :=
  .object [("endpoints", .list (c.endpoints.map Endpoint.json)), ("roles", natJson c.roles),
    ("join_deadline_ms", natJson c.joinDeadline), ("join_interval_ms", natJson c.joinInterval),
    ("begin_deadline_ms", natJson c.beginDeadline), ("begin_poll_ms", natJson c.beginPoll),
    ("end_poll_ms", natJson c.endPoll), ("stagger_ms", natJson c.stagger),
    ("command_pacing_ms", natJson c.commandPacing), ("probe_endpoints", .bool c.probeEndpoints),
    ("probe_timeout_ms", natJson c.probeTimeout), ("maze_size", natJson c.mazeSize),
    ("seed", Json.ofOption natJson c.seed),
    ("navigating_roles", .list (c.navigatingRoles.map natJson)),
    ("time_limit_ms", Json.ofOption natJson c.timeLimit),
    ("creation_latency_ms", natJson c.creationLatency)]

def number32 : Decoder Nat := Decoder.nat UInt32.size

def number64 : Decoder Nat := Decoder.nat UInt64.size

/-- All members are optional, and each has the range of its field. -/
def fields : List (Json.Field Config) :=
  [.of "endpoints" false (Decoder.list Endpoint.decoder) fun v c => { c with endpoints := v },
    .of "roles" false number32 fun v c => { c with roles := v },
    .of "join_deadline_ms" false number64 fun v c => { c with joinDeadline := v },
    .of "join_interval_ms" false number64 fun v c => { c with joinInterval := v },
    .of "begin_deadline_ms" false number64 fun v c => { c with beginDeadline := v },
    .of "begin_poll_ms" false number64 fun v c => { c with beginPoll := v },
    .of "end_poll_ms" false number64 fun v c => { c with endPoll := v },
    .of "stagger_ms" false number64 fun v c => { c with stagger := v },
    .of "command_pacing_ms" false number64 fun v c => { c with commandPacing := v },
    .of "probe_endpoints" false Decoder.bool fun v c => { c with probeEndpoints := v },
    .of "probe_timeout_ms" false number64 fun v c => { c with probeTimeout := v },
    .of "maze_size" false number64 fun v c => { c with mazeSize := v },
    .of "seed" false (Decoder.option number64) fun v c => { c with seed := v },
    .of "navigating_roles" false (Decoder.list number32) fun v c => { c with navigatingRoles := v },
    .of "time_limit_ms" false (Decoder.option number64) fun v c => { c with timeLimit := v },
    .of "creation_latency_ms" false number64 fun v c => { c with creationLatency := v }]

def ofText (text : String) : Except Json.Fault Config :=
  Json.decode (Json.Record.decode fields standard) text

/-- Reads the bytes of a file, which have to be UTF-8. -/
def ofBytes (bytes : ByteArray) : Except MissionError Config :=
  match String.fromUTF8? bytes with
  | none => .error (.io "stream did not contain valid UTF-8")
  | some text =>
    match ofText text with
    | .ok c => .ok c
    | .error f => .error (.serialization f)

end Config

end Labyrinth

import Labyrinth.Json.Decoder
import Labyrinth.Json.Basic

/-!
# Session identifiers

Every role of a mission passes the same identifier to the engine. It is an opaque text.
-/

namespace Labyrinth

/-- What tells one session from another. -/
structure SessionId where
  text : String
deriving DecidableEq, Hashable, Inhabited

namespace SessionId

def suffix (word : UInt32) : String :=
  String.ofList ((List.range 8).reverse.map fun i => Json.hexDigit ((word.toNat >>> (4 * i)) % 16))

/-- An identifier from the seconds since 1970 and a random word. -/
def generated (seconds : Nat) (word : UInt32) : SessionId :=
  ⟨"shared_mission_" ++ toString seconds ++ "_" ++ suffix word⟩

def json (s : SessionId) : Json := .text s.text

def decoder : Json.Decoder SessionId := fun v => SessionId.mk <$> Json.Decoder.text v

end SessionId

end Labyrinth

import Labyrinth.Mission
import Std.Time.DateTime.Timestamp

/-!
# The program

Reads the arguments and the files, runs the mission on its virtual clock, and prints what it says.
-/

namespace Labyrinth.Program

/-- The message of a failed read with its number, as far as it is known. -/
def readFailure : IO.Error → String
  | .noFileOrDirectory .. => "No such file or directory (os error 2)"
  | .permissionDenied .. => "Permission denied (os error 13)"
  | .inappropriateType .. => "Is a directory (os error 21)"
  | e => toString e

def readFile (path : String) : IO (Except String ByteArray) := do
  try
    return .ok (← IO.FS.readBinFile path)
  catch e =>
    return .error (readFailure e)

/-- As many steps as a mission may take. -/
def steps : Nat := 1000000000000

def runMission (a : Arguments) : IO UInt32 := do
  let content ← match a.config with
    | some path => readFile path
    | none => pure (.error "")
  let drawn := UInt64.ofNat (← IO.rand 0 (UInt64.size - 1))
  let suffix := UInt32.ofNat (← IO.rand 0 (UInt32.size - 1))
  let seconds := (← Std.Time.Timestamp.now).toSecondsSinceUnixEpoch.toInt.toNat
  match Mission.run (fun _ => content) drawn .closed (.generated seconds suffix) steps a with
  | none => return 1
  | some r =>
    IO.print r.output
    match r.failure with
    | none => return 0
    | some f =>
      IO.eprintln ("Error: " ++ f.text)
      return 1

end Labyrinth.Program

open Labyrinth in
def main (args : List String) : IO UInt32 := do
  match CommandLine.parse args with
  | .help =>
    IO.print CommandLine.helpText
    return 0
  | .version =>
    IO.print CommandLine.versionText
    return 0
  | .wrong =>
    IO.eprintln "error: the arguments cannot be understood\n\nFor more information, try '--help'."
    return 2
  | .run a => Program.runMission a

import Labyrinth.Coordinator.Basic

/-!
# Scripted hosts

A scripted host answers each kind of call from a list of lines: the first call by the first line and
so on, and when the lines are used up by the last one again. It keeps when it was called.
-/

namespace Labyrinth

namespace Script

/-- A line: how long the answer takes, and the answer itself. Without an answer the call breaks
down. -/
structure Line (α : Type) where
  delay : Nat
  answer : Option α

/-- The line for a call, counted from zero. -/
def lineAt {α : Type} (lines : List (Line α)) (blank : Line α) (call : Nat) : Line α :=
  match lines[call]? with
  | some l => l
  | none => lines.getLast?.getD blank

end Script

open Script in
/-- The lines for each kind of call. -/
structure Script where
  join : List (Line (Except JoinError Unit))
  status : List (Line (Except String Status))
  send : List (Line (Except String Unit))
  observe : List (Line (Option Observation))
  /-- Once a role has quit, the session is not running. -/
  quitStops : Bool
  /-- Once so many commands were sent, the session is not running. -/
  stopAfter : Option Nat

namespace Script

/-- A script in use, with how far it has got. -/
structure Host where
  script : Script
  joins : Nat
  statuses : Nat
  sends : Nat
  observes : Nat
  accepted : Nat
  hasQuit : Bool
  /-- The calls and their times, latest first. -/
  calls : List (Nat × String)

def Host.ofScript (script : Script) : Host := ⟨script, 0, 0, 0, 0, 0, false, []⟩

namespace Host

def called (h : Host) (now : Nat) (what : String) : Host :=
  { h with calls := (now, what) :: h.calls }

def trace (h : Host) : List (Nat × String) := h.calls.reverse

/-- The status says from now on that the session is not running. -/
def hasStopped (h : Host) : Bool :=
  h.script.quitStops && h.hasQuit ||
    (match h.script.stopAfter with
      | none => false
      | some n => decide (n ≤ h.accepted))

def join (h : Host) (now : Nat) (role : Role) (id : SessionId) (poolSize : Nat) :
    Line (Except JoinError Unit) × Host :=
  (lineAt h.script.join ⟨0, some (.ok ())⟩ h.joins,
    { h.called now ("join role=" ++ role.text ++ " session=" ++ id.text ++ " pool=" ++
        toString poolSize) with joins := h.joins + 1 })

def status (h : Host) (now : Nat) : Line (Except String Status) × Host :=
  let line := lineAt h.script.status ⟨0, some (.ok ⟨true, true⟩)⟩ h.statuses
  let answer := line.answer.map fun a =>
    a.map fun s => { s with isRunning := s.isRunning && !h.hasStopped }
  (⟨line.delay, answer⟩, { h.called now "status" with statuses := h.statuses + 1 })

def send (h : Host) (now : Nat) (token : String) : Line (Except String Unit) × Host :=
  let line := lineAt h.script.send ⟨0, some (.ok ())⟩ h.sends
  let h := { h.called now ("send " ++ token) with sends := h.sends + 1 }
  match line.answer with
  | some (.ok ()) =>
    (line, { h with
      accepted := h.accepted + 1
      hasQuit := h.hasQuit || token == Command.quitToken })
  | _ => (line, h)

def observe (h : Host) (now : Nat) : Line (Option Observation) × Host :=
  (lineAt h.script.observe ⟨0, some none⟩ h.observes,
    { h.called now "observe" with observes := h.observes + 1 })

end Host

end Script

end Labyrinth

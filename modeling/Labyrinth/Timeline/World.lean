import Labyrinth.Engine.Host
import Labyrinth.Position.Board
import Labyrinth.Timeline.Basic
import Labyrinth.Timeline.Script

/-!
# The world of a mission

The world holds the engine, a host for each role, the board on which positions are published, and
the network through which endpoints are probed. A host is either the engine's or scripted.
-/

namespace Labyrinth

open Coordinator

/-! ## The network -/

/-- An attempt to connect: how long it takes, and whether somebody listens. -/
structure Dial where
  delay : Nat
  opens : Bool

/-- Beyond the limit nobody waits, and the endpoint counts as closed. -/
def Dial.within (d : Dial) (limit : Nat) : Dial :=
  if d.delay ≤ limit then d else ⟨limit, false⟩

theorem Dial.delay_within_le (d : Dial) (limit : Nat) : (d.within limit).delay ≤ limit := by
  unfold within
  split
  · assumption
  · exact Nat.le_refl limit

/-- What comes of it when a role connects to an endpoint at some time. -/
abbrev Network := Role → Endpoint → Nat → Dial

namespace Network

/-- Nobody listens, and every attempt is turned away at once. -/
def closed : Network := fun _ _ _ => ⟨0, false⟩

/-- The answer to a probe comes when the endpoint answers, or at the limit. -/
def probe {π : Type} (network : Network) (r : Role) (endpoint : Endpoint) (limit now : Nat) :
    Reply π :=
  let dial := (network r endpoint now).within limit
  .after dial.delay (.probed dial.opens)

end Network

/-! ## The world -/

namespace World

inductive Host where
  | engine (host : Engine.Host)
  | scripted (host : Script.Host)

/-- What the surroundings owe a role: an answer that is known, or the end of a creation. -/
inductive Pending where
  | tell (answer : Option Event)
  | creation (id : SessionId)

end World

open World in
/-- What the coordinators of a launch share. -/
structure World where
  engine : Engine
  hosts : List (Role × World.Host)
  board : Option Board
  network : Network

namespace World

def replyOf {α : Type} (toEvent : α → Event) (l : Script.Line α) : Reply Pending :=
  .later l.delay (.tell (l.answer.map toEvent))

def host? (w : World) (r : Role) : Option Host := w.hosts.lookup r

def setHost (w : World) (r : Role) (h : Host) : World :=
  { w with hosts := w.hosts.map fun e => if e.1 = r then (r, h) else e }

/-- A script tells how long each answer takes. It knows only the calls of a host. -/
def takeScripted (w : World) (b : Brief) (h : Script.Host) (now : Nat) :
    Request → Reply Pending × World
  | .join =>
    let (l, h) := h.join now b.role b.session b.pool.size
    (replyOf .joined l, w.setHost b.role (.scripted h))
  | .status =>
    let (l, h) := h.status now
    (replyOf .status l, w.setHost b.role (.scripted h))
  | .send token =>
    let (l, h) := h.send now token
    (replyOf .sent l, w.setHost b.role (.scripted h))
  | .observe =>
    let (l, h) := h.observe now
    (replyOf .observed l, w.setHost b.role (.scripted h))
  | _ => (.crash, w)

/-- The answer to a join, which the host notes. -/
def answerJoin (w : World) (b : Brief) (h : Engine.Host) (a : Except JoinError Unit) :
    Event × World :=
  (.joined a, w.setHost b.role (.engine (h.afterJoin b.session a)))

/-- The engine answers at once, only a creation takes time. -/
def takeEngine (w : World) (b : Brief) (h : Engine.Host) (now : Nat) :
    Request → Reply Pending × World
  | .join =>
    match w.engine.join b.sceneRoles b.pool.size b.role b.session now with
    | (.answered a, engine) =>
      let (e, w) := { w with engine }.answerJoin b h a
      (.event e, w)
    | (.creating, engine) =>
      (.later w.engine.options.creationLatency (.creation b.session), { w with engine })
  | .status =>
    let (a, engine) := h.status w.engine now
    (.event (.status a), { w with engine })
  | .send token =>
    let (a, engine) := h.send w.engine token now
    (.event (.sent a), { w with engine })
  | .observe => (.event (.observed (h.observe w.engine)), w)
  | _ => (.crash, w)

/-- Probes go to the network and publications to the board, whatever the host of the role is. -/
def take (b : Brief) (request : Request) (now : Nat) (w : World) : Reply Pending × World :=
  match request with
  | .probe endpoint limit => (w.network.probe b.role endpoint limit now, w)
  | .publish s => (.event .published, { w with board := w.board.map (·.publish s) })
  | _ =>
    match w.host? b.role with
    | some (.scripted h) => w.takeScripted b h now request
    | some (.engine h) => w.takeEngine b h now request
    | none => (.crash, w)

def settle (b : Brief) (p : Pending) (now : Nat) (w : World) : Option Event × World :=
  match p with
  | .tell answer => (answer, w)
  | .creation id =>
    let (a, engine) := w.engine.finishCreation id now
    let w := { w with engine }
    match w.host? b.role with
    | some (.engine h) =>
      let (e, w) := w.answerJoin b h a
      (some e, w)
    | _ => (some (.joined a), w)

def surroundings : Surroundings World Pending := ⟨take, settle⟩

end World

end Labyrinth

import Labyrinth.Coordinator.Report
import Labyrinth.Position.Snapshot
import Labyrinth.Retry.Basic
import Labyrinth.Session.Endpoint
import Labyrinth.Session.Identifier

/-!
# Coordinators

A coordinator leads one role through a mission: it joins the session, waits for it to begin, sends
the commands of its plan, and waits for the session to end. It is a machine. Its phase says what it
has asked of its surroundings, and each event moves it on to the next request, until it has a
report. It knows the time and whether it is cancelled only from the events.
-/

namespace Labyrinth

namespace Coordinator

/-- How a coordinator probes, waits and paces. -/
structure Settings where
  /-- How long to probe each endpoint before joining, if at all. -/
  probeTimeout : Option Nat
  joining : Retry.Policy
  /-- When this deadline has passed, the coordinator goes on as if the session had begun. -/
  beginning : Retry.Policy
  ending : Retry.Policy
  pacing : Nat
deriving DecidableEq, Inhabited

def Settings.standard : Settings where
  probeTimeout := none
  joining := ⟨1500, some 60000⟩
  beginning := ⟨200, some 60000⟩
  ending := ⟨500, none⟩
  pacing := 200

/-- What a coordinator is told before it starts, and never changes. -/
structure Brief where
  role : Role
  session : SessionId
  /-- How many agents the scene of the session has. -/
  sceneRoles : Nat
  pool : Pool
  settings : Settings
  /-- The actions to carry out. Without a plan the role stays idle. -/
  plan : Option (List Action)
  /-- The role publishes its position after each command. -/
  tracked : Bool

/-! ## Requests and events -/

/-- What a coordinator asks of its surroundings. -/
inductive Request where
  /-- Whether somebody listens on an endpoint. Nobody is waited for beyond the limit. -/
  | probe (endpoint : Endpoint) (limit : Nat)
  | join
  | status
  | send (token : String)
  | observe
  | publish (snapshot : Snapshot)
  | nap (span : Nat)

/-- What the surroundings tell a coordinator. -/
inductive Event where
  | started
  | probed (reachable : Bool)
  | joined (answer : Except JoinError Unit)
  | status (answer : Except String Status)
  | sent (answer : Except String Unit)
  | observed (answer : Option Observation)
  | published
  | woken (rested : Bool)

/-! ## Phases -/

/-- What a coordinator is doing. `rest` holds what is still to come: the endpoints that have not
been probed yet, or the actions that have not been sent yet. -/
inductive Phase where
  | fresh
  | probing (limit : Nat) (endpoint : Endpoint) (rest : List Endpoint)
  | joining (loop : Retry) (wait : Retry.Wait)
  | awaitingBegin (loop : Retry) (wait : Retry.Wait)
  | sending (action : Action) (rest : List Action)
  | observing (action : Action) (rest : List Action)
  | publishing (snapshot : Snapshot) (rest : List Action)
  | pacing (rest : List Action)
  | checking (rest : List Action)
  | quitting
  | awaitingEnd (loop : Retry) (wait : Retry.Wait)
  | terminated (outcome : Outcome) (elapsed : Nat)

end Coordinator

open Coordinator in
/-- The state of a coordinator, with what its report will count. -/
structure Coordinator where
  brief : Brief
  phase : Phase
  startedAt : Nat
  stages : List Stage
  joinAttempts : Nat
  commandsSent : Nat
  /-- Some status said that the session had begun. -/
  began : Bool
  failure : Option MissionError

namespace Coordinator

/-- A coordinator that has not started yet. -/
def ofBrief (brief : Brief) : Coordinator := ⟨brief, .fresh, 0, [], 0, 0, false, none⟩

/-- What the coordinator waits for. An ended one waits for nothing. -/
def request (c : Coordinator) : Option Request :=
  match c.phase with
  | .fresh => none
  | .probing limit endpoint _ => some (.probe endpoint limit)
  | .joining _ .answer => some .join
  | .joining r .pause => some (.nap r.policy.interval)
  | .awaitingBegin _ .answer => some .status
  | .awaitingBegin r .pause => some (.nap r.policy.interval)
  | .sending a _ => some (.send a.command.token)
  | .observing _ _ => some .observe
  | .publishing s _ => some (.publish s)
  | .pacing _ => some (.nap c.brief.settings.pacing)
  | .checking _ => some .status
  | .quitting => some (.send Command.quitToken)
  | .awaitingEnd _ .answer => some .status
  | .awaitingEnd r .pause => some (.nap r.policy.interval)
  | .terminated _ _ => none

/-! ## Moving on -/

/-- The time and whether the mission is cancelled by then. -/
structure Moment where
  now : Nat
  cancelled : Bool

/-- Notes a stage. -/
def enter (c : Coordinator) (s : Stage) : Coordinator := { c with stages := c.stages ++ [s] }

/-- Ends the mission. From then on there is a report. -/
def terminate (c : Coordinator) (m : Moment) (outcome : Outcome) (failure : Option MissionError) :
    Coordinator :=
  { c.enter (.terminated outcome) with
    phase := .terminated outcome (m.now - c.startedAt)
    failure }

/-- Ends the mission with an error of its own. -/
def abort (c : Coordinator) (m : Moment) (e : MissionError) : Coordinator :=
  c.terminate m .aborted (some e)

def cancel (c : Coordinator) (m : Moment) : Coordinator :=
  c.terminate m .cancelled (some .cancelled)

/-- Polls for the end. The session has to have begun before it can end. -/
def endMove (c : Coordinator) (m : Moment) : Retry.Move (Retry.Pending String) Unit → Coordinator
  | .wait r w => { c with phase := .awaitingEnd r w }
  | .stop o =>
    match o.poll with
    | .satisfied _ _ =>
      if c.began then c.terminate m .completed none else c.abort m .neverBegan
    | .late _ elapsed => c.abort m (.stillRunning (.ofMillis elapsed))
    | .cancelled => c.cancel m
    | .failed reason => c.abort m (.status reason)

def awaitEnd (c : Coordinator) (m : Moment) : Coordinator :=
  (c.enter .awaitingEnd).endMove m (Retry.start c.brief.settings.ending m.now m.cancelled)

/-- Sends the next command, or quits after the last one. -/
def proceed (c : Coordinator) : List Action → Coordinator
  | [] => { c with phase := .quitting }
  | a :: rest => { c with phase := .sending a rest }

/-- Starts on the plan. Without one the coordinator stays connected. -/
def activate (c : Coordinator) (m : Moment) : Coordinator :=
  let c := c.enter .active
  match c.brief.plan with
  | none => c.awaitEnd m
  | some actions => c.proceed actions

/-- Polls for the beginning. A deadline that passes does not end the mission. -/
def beginMove (c : Coordinator) (m : Moment) : Retry.Move (Retry.Pending String) Unit → Coordinator
  | .wait r w => { c with phase := .awaitingBegin r w }
  | .stop o =>
    match o.poll with
    | .satisfied _ _ => { c with began := true }.activate m
    | .late _ _ => c.activate m
    | .cancelled => c.cancel m
    | .failed reason => c.abort m (.status reason)

def awaitBegin (c : Coordinator) (m : Moment) : Coordinator :=
  (c.enter .awaitingBegin).beginMove m (Retry.start c.brief.settings.beginning m.now m.cancelled)

/-- Tries to join. The number of attempts is kept unless the loop was cancelled. -/
def joinMove (c : Coordinator) (m : Moment) : Retry.Move JoinError Unit → Coordinator
  | .wait r w => { c with phase := .joining r w }
  | .stop (.done _ attempts _) => { c with joinAttempts := attempts }.awaitBegin m
  | .stop (.late _ attempts elapsed) =>
    { c with joinAttempts := attempts }.terminate m .joinTimeout
      (some (.joinTimeout c.brief.role (.ofMillis elapsed)))
  | .stop (.fatal e attempts) => { c with joinAttempts := attempts }.abort m (.join e)
  | .stop .cancelled => c.cancel m

def join (c : Coordinator) (m : Moment) : Coordinator :=
  (c.enter .joining).joinMove m (Retry.start c.brief.settings.joining m.now m.cancelled)

/-- Probes one endpoint after the other and then joins, whatever came of it. A cancellation is not
looked at before that. -/
def probe (c : Coordinator) (m : Moment) (limit : Nat) : List Endpoint → Coordinator
  | [] => c.join m
  | endpoint :: rest => { c with phase := .probing limit endpoint rest }

/-- Starts the clock of the report, and probes the endpoints if that is wanted. -/
def start (c : Coordinator) (m : Moment) : Coordinator :=
  let c := { c with startedAt := m.now }
  match c.brief.settings.probeTimeout with
  | none => c.join m
  | some limit => (c.enter .probing).probe m limit c.brief.pool.endpoints

/-! ## Answers -/

/-- What an answer to a join means to the loop. -/
def joinAnswer : Except JoinError Unit → Retry.Answer JoinError Unit
  | .ok () => .done ()
  | .error e => if e.isRetriable then .busy e else .fatal e

/-- Remembers that the session has begun. A later status does not take that back. -/
def notice (c : Coordinator) (s : Status) : Coordinator := { c with began := c.began || s.hasBegun }

def planSize (c : Coordinator) : Nat := (c.brief.plan.getD []).length

/-- Goes on after the status that follows a command. A session that stopped is no failure after the
last command, if it had begun. -/
def checked (c : Coordinator) (m : Moment) (rest : List Action) (s : Status) : Coordinator :=
  let c := c.notice s
  if s.isRunning then c.proceed rest
  else if c.began && rest.isEmpty then c.awaitEnd m
  else if c.began then c.abort m (.sessionStopped c.commandsSent c.planSize)
  else c.abort m .neverBegan

/-- Counts a command that was taken. Its effect is looked at only if the role is tracked. -/
def commandSent (c : Coordinator) (action : Action) (rest : List Action) : Coordinator :=
  { c with
    commandsSent := c.commandsSent + 1
    phase := if c.brief.tracked then .observing action rest else .pacing rest }

/-- The snapshot to publish after an action. Without an observation the plan is believed. -/
def snapshotAfter (c : Coordinator) (m : Moment) (action : Action) : Option Observation → Snapshot
  | some o => .observed c.brief.role o m.now
  | none => .planned c.brief.role action.target m.now

/-- Moves on at an event. One that the coordinator does not wait for changes nothing. -/
def advance (c : Coordinator) (m : Moment) (e : Event) : Coordinator :=
  match c.phase, e with
  | .fresh, .started => c.start m
  | .probing limit _ rest, .probed _ => c.probe m limit rest
  | .joining r .answer, .joined a => c.joinMove m (r.answered m.now (joinAnswer a))
  | .joining r .pause, .woken rested => c.joinMove m (r.woken rested m.cancelled)
  | .awaitingBegin r .answer, .status a =>
    c.beginMove m (r.answered m.now (Retry.pollAnswer (a.map Status.hasBegun)))
  | .awaitingBegin r .pause, .woken rested => c.beginMove m (r.woken rested m.cancelled)
  | .sending a rest, .sent (.ok ()) => c.commandSent a rest
  | .sending a _, .sent (.error reason) => c.abort m (.commandSend a.command.token reason)
  | .observing a rest, .observed o => { c with phase := .publishing (c.snapshotAfter m a o) rest }
  | .publishing _ rest, .published => { c with phase := .pacing rest }
  | .pacing rest, .woken true => { c with phase := .checking rest }
  | .pacing _, .woken false => c.cancel m
  | .checking rest, .status (.ok s) => c.checked m rest s
  | .checking _, .status (.error reason) => c.abort m (.status reason)
  | .quitting, .sent (.ok ()) => { c with commandsSent := c.commandsSent + 1 }.awaitEnd m
  | .quitting, .sent (.error reason) => c.abort m (.commandSend Command.quitToken reason)
  | .awaitingEnd r .answer, .status a =>
    let c := match a with
      | .ok s => c.notice s
      | .error _ => c
    c.endMove m (r.answered m.now (Retry.pollAnswer (a.map fun s => !s.isRunning)))
  | .awaitingEnd r .pause, .woken rested => c.endMove m (r.woken rested m.cancelled)
  | _, _ => c

/-- The report, once the coordinator has ended. -/
def report? (c : Coordinator) : Option Report :=
  match c.phase with
  | .terminated outcome elapsed =>
    some ⟨c.brief.role, outcome, c.stages, c.joinAttempts, c.commandsSent, .ofMillis elapsed,
      c.failure⟩
  | _ => none

end Coordinator

end Labyrinth

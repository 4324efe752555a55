import Labyrinth.Coordinator.Basic
import Labyrinth.Time.Cancellation

/-!
# Timelines

Coordinators run on one virtual clock. Time moves only when all of them wait, and then jumps to the
earliest time at which one of them goes on. Of those that go on at one time, the one that has waited
longest comes first, and it keeps going until it has to wait again.

The surroundings answer the requests of the coordinators. They have a state of their own, and an
answer may take a while.
-/

namespace Labyrinth

open Coordinator

/-- How a request is taken: it is answered at once, or its answer is known and comes after a while,
or it is settled after a while, or the track of the coordinator breaks down. -/
inductive Reply (π : Type) where
  | event (e : Event)
  | after (span : Nat) (e : Event)
  | later (span : Nat) (pending : π)
  | crash

/-- Surroundings with states in `ω`, which remember in `π` what has to be settled. -/
structure Surroundings (ω π : Type) where
  take : Brief → Request → Nat → ω → Reply π × ω
  /-- Settles a request. Without an event the track breaks down. -/
  settle : Brief → π → Nat → ω → Option Event × ω

namespace Timeline

/-- What a track goes on with. -/
inductive Due (π : Type) where
  | event (e : Event)
  | settle (pending : π)

/-- A track waits for its turn, or it has ended with a report. -/
inductive State (π : Type) where
  | waiting (time order : Nat) (due : Due π)
  | ended (report : Report)

structure Track (π : Type) where
  coordinator : Coordinator
  state : State π

def Track.starting {π : Type} (brief : Brief) (time order : Nat) : Track π :=
  ⟨.ofBrief brief, .waiting time order (.event .started)⟩

/-- A track that breaks down has a report all the same. -/
def Track.lost {π : Type} (t : Track π) : Track π :=
  let role := t.coordinator.brief.role
  { t with state := .ended (.lost role (.taskFailed role)) }

def Track.report? {π : Type} (t : Track π) : Option Report :=
  match t.state with
  | .ended r => some r
  | .waiting _ _ _ => none

end Timeline

open Timeline in
/-- All tracks, with the surroundings that they share. -/
structure Timeline (ω π : Type) where
  now : Nat
  world : ω
  tracks : List (Track π)
  waits : Nat

namespace Timeline

variable {ω π : Type}

/-- When a track goes on. Of the tracks that go on at one time the lowest order comes first. -/
structure Turn where
  time : Nat
  order : Nat
  index : Nat

def Turn.before (a b : Turn) : Bool :=
  decide (a.time < b.time ∨ a.time = b.time ∧ a.order < b.order)

/-- The turn of the track at an index, if it waits. -/
def Track.turn? (t : Track π) (index : Nat) : Option Turn :=
  match t.state with
  | .waiting time order _ => some ⟨time, order, index⟩
  | .ended _ => none

def earlier (first : Option Turn) (t : Turn) : Option Turn :=
  match first with
  | none => some t
  | some f => if t.before f then some t else some f

/-- The turn that comes first, if any track waits. -/
def firstTurn (tracks : List (Track π)) : Option Turn :=
  (tracks.zipIdx.filterMap fun (t, i) => t.turn? i).foldl earlier none

/-- Lets a track wait until the given time. It keeps its turn if that is now. -/
def wait (tl : Timeline ω π) (i : Nat) (c : Coordinator) (order time : Nat) (due : Due π) :
    Timeline ω π :=
  if time = tl.now then { tl with tracks := tl.tracks.set i ⟨c, .waiting time order due⟩ }
  else { tl with
    tracks := tl.tracks.set i ⟨c, .waiting time tl.waits due⟩
    waits := tl.waits + 1 }

/-- Hands the request of a coordinator to the surroundings, or takes its report. -/
def ask (s : Surroundings ω π) (cancellation : Cancellation) (tl : Timeline ω π) (i : Nat)
    (c : Coordinator) (order : Nat) : Timeline ω π :=
  match c.report?, c.request with
  | some r, _ => { tl with tracks := tl.tracks.set i ⟨c, .ended r⟩ }
  | none, some (.nap span) =>
    let nap := cancellation.nap tl.now span
    tl.wait i c order nap.wokenAt (.event (.woken nap.rested))
  | none, some request =>
    let (reply, world) := s.take c.brief request tl.now tl.world
    let tl := { tl with world }
    match reply with
    | .event e => tl.wait i c order tl.now (.event e)
    | .after span e => tl.wait i c order (tl.now + span) (.event e)
    | .later span pending => tl.wait i c order (tl.now + span) (.settle pending)
    | .crash => { tl with tracks := tl.tracks.modify i Track.lost }
  | none, none => { tl with tracks := tl.tracks.modify i Track.lost }

/-- Lets the track whose turn it is go on. There is no step once all tracks have ended. -/
def step (s : Surroundings ω π) (cancellation : Cancellation) (tl : Timeline ω π) :
    Option (Timeline ω π) := do
  let i := (← firstTurn tl.tracks).index
  let t ← tl.tracks[i]?
  match t.state with
  | .ended _ => none
  | .waiting time order due =>
    let tl := { tl with now := time }
    let (event, world) := match due with
      | .event e => (some e, tl.world)
      | .settle pending => s.settle t.coordinator.brief pending time tl.world
    let tl := { tl with world }
    match event with
    | none => some { tl with tracks := tl.tracks.modify i Track.lost }
    | some e =>
      let c := t.coordinator.advance ⟨time, cancellation.reached time⟩ e
      some (tl.ask s cancellation i c order)

/-- Takes steps until all tracks have ended, if the fuel lasts. -/
def run (s : Surroundings ω π) (cancellation : Cancellation) :
    Nat → Timeline ω π → Option (Timeline ω π)
  | 0, _ => none
  | fuel + 1, tl =>
    match tl.step s cancellation with
    | none => some tl
    | some tl => run s cancellation fuel tl

def reports (tl : Timeline ω π) : List Report := tl.tracks.filterMap Track.report?

end Timeline

end Labyrinth

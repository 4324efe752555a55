import Labyrinth.Position.Board

/-!
# The position stream

A client of the stream first gets the latest snapshot of each role and then each change. The stream
works in small steps, between which others may publish: it looks at the slots one by one, then
subscribes to them one by one, and from then on forwards from each slot what has not been seen.
What is to be sent waits in a queue.
-/

namespace Labyrinth.Feed

/-- How far the stream is with the slots. -/
inductive Stage where
  | looking (slots : Nat)
  | subscribing (slots : Nat)
  | forwarding
deriving DecidableEq

/-- The side of one client. -/
structure Stream where
  stage : Stage
  /-- The subscriptions in role order. -/
  subscriptions : List Subscription
  queue : List Snapshot
  sent : List Snapshot

def Stream.fresh : Stream := ⟨.looking 0, [], [], []⟩

/-- A board and a stream that reads it. -/
structure Streaming where
  board : Board
  stream : Stream

namespace Streaming

/-- A step of the stream, or a publication by somebody else. -/
inductive Step where
  | publish (s : Snapshot)
  /-- The stream looks at the next slot or subscribes to it. -/
  | setUp
  /-- The stream forwards what has not been seen in a slot. -/
  | forward (index : Nat)
  | send

def enqueue (st : Stream) (s : Option Snapshot) : Stream :=
  { st with queue := st.queue ++ s.toList }

/-- Looks at the next slot or subscribes to it. In between there is time for a publication. -/
def setUp (x : Streaming) : Streaming :=
  match x.stream.stage with
  | .looking i =>
    match x.board.slots[i]? with
    | some slot =>
      { x with stream := { enqueue x.stream slot.latest with stage := .looking (i + 1) } }
    | none => { x with stream := { x.stream with stage := .subscribing 0 } }
  | .subscribing i =>
    match x.board.subscribe ⟨i⟩ with
    | some sub =>
      { x with stream := { x.stream with
        subscriptions := x.stream.subscriptions ++ [sub]
        stage := .subscribing (i + 1) } }
    | none => { x with stream := { x.stream with stage := .forwarding } }
  | .forwarding => x

/-- Puts the latest snapshot of a slot into the queue if it has not been seen. -/
def forward (x : Streaming) (i : Nat) : Streaming :=
  match x.stream.subscriptions[i]? with
  | none => x
  | some sub =>
    if x.board.changed sub then
      let (s, sub) := x.board.read sub
      { x with stream := { enqueue x.stream s with
        subscriptions := x.stream.subscriptions.set i sub } }
    else x

def send (x : Streaming) : Streaming :=
  match x.stream.queue with
  | [] => x
  | s :: queue => { x with stream := { x.stream with queue, sent := x.stream.sent ++ [s] } }

/-- A step that cannot be taken changes nothing. -/
def step (x : Streaming) : Step → Streaming
  | .publish s => { x with board := x.board.publish s }
  | .setUp => x.setUp
  | .forward i => x.forward i
  | .send => x.send

def steps (x : Streaming) (ss : List Step) : Streaming := ss.foldl step x

/-! ## Coming to rest -/

/-- Sets the stream up, forwards everything and sends it, with nothing published meanwhile. -/
def settle (x : Streaming) : Streaming :=
  let n := x.board.roles
  let x := x.steps (List.replicate (2 * n + 2) .setUp)
  let x := x.steps ((List.range n).map .forward)
  x.steps (List.replicate x.stream.queue.length .send)

end Streaming

end Labyrinth.Feed

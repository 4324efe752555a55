import Labyrinth.Feed.Message
import Labyrinth.Position.Board
import Labyrinth.Session.Identifier
import Labyrinth.Text.Unsigned

/-!
# The routes of the position feed

The feed tells its health, all positions, the position of one role, and streams the positions that
are published. A path without a route is not found, and a route takes no other method than `GET`.
-/

namespace Labyrinth.Feed

/-- What the feed knows when it answers. -/
structure State where
  board : Board
  session : SessionId
  /-- What the clock showed when the time of the snapshots was zero. -/
  epoch : Nat
  now : Nat

inductive Route where
  | health
  | positions
  | position (role : Nat)
  | stream
deriving DecidableEq

namespace Route

/-- The path of a target, without its query. -/
def pathOf (target : String) : List Char := target.toList.takeWhile fun c => c != '?' && c != '#'

def split : List Char → List (List Char)
  | [] => [[]]
  | '/' :: cs => [] :: split cs
  | c :: cs =>
    match split cs with
    | [] => [[c]]
    | s :: ss => (c :: s) :: ss

/-- The segments of a path. One slash at its beginning and one at its end do not count. -/
def segments (path : List Char) : List String :=
  let inner := match path with
    | '/' :: cs => cs
    | cs => cs
  let parts := split inner
  let parts := if parts.getLast? = some [] then parts.dropLast else parts
  parts.map String.ofList

/-- The route of some segments. Health and stream are known by their first segment alone. -/
def ofSegments? : List String → Option Route
  | ["positions"] => some .positions
  | ["positions", role] => (Text.unsigned? UInt32.size role).map .position
  | "health" :: _ => some .health
  | "stream" :: _ => some .stream
  | _ => none

def ofTarget? (target : String) : Option Route := ofSegments? (segments (pathOf target))

end Route

/-! ## Answers -/

def health (s : State) : Response :=
  .ofJson 200 (.object [("status", .text "healthy"), ("service", .text "mission-runner"),
    ("version", .text "0.1.0"), ("session", .text s.session.text),
    ("timestamp", .text (Calendar.timestamp (s.epoch + s.now)))])

def positions (s : State) : Response :=
  .ofJson 200 (.list (s.board.snapshot.map (·.json s.epoch)))

/-- A role without a snapshot is not found, for another reason than a role that is not there. -/
def position (s : State) (role : Nat) : Response :=
  if s.board.roles ≤ role then .error 404 ("Unknown role " ++ toString role)
  else match s.board.latest ⟨role⟩ with
    | some snapshot => .ofJson 200 (snapshot.json s.epoch)
    | none => .error 404 ("Role " ++ toString role ++ " has not reported a position yet")

/-- The headers of a handshake are all there. -/
def wantsStream (r : Request) : Bool :=
  ((r.header? "connection").any fun v =>
      (v.splitOn ",").any fun t => (t.trimAscii.toString.map Char.toLower) == "upgrade") &&
    ((r.header? "upgrade").any fun v => v.map Char.toLower == "websocket") &&
    r.header? "sec-websocket-version" == some "13" && (r.header? "sec-websocket-key").isSome

/-- A stream starts with a response of its own. -/
def stream (r : Request) : Response :=
  if wantsStream r then ⟨101, [], .text ""⟩ else .error 500 "Internal Server Error"

/-- The path is judged before the method. -/
def answerRoute (s : State) (r : Request) : Response :=
  match Route.ofTarget? r.path with
  | none => .error 404 "Not Found"
  | some route =>
    if r.method ≠ "GET" then .error 405 "Method Not Allowed"
    else match route with
      | .health => health s
      | .positions => positions s
      | .position role => position s role
      | .stream => stream r

end Labyrinth.Feed

import Labyrinth.Feed.Routes
import Labyrinth.Text.Blank

/-!
# Requests from other origins

Browsers name the origin of a page that asks. Every origin may read the feed. Before a request that
is out of the ordinary a browser asks with the method `OPTIONS` whether it is allowed.
-/

namespace Labyrinth.Feed

def allowedMethods : List String := ["GET", "OPTIONS"]

def allowedHeaders : List String := ["accept", "content-type"]

/-- The refusal of what a page may not do. -/
def forbidden (what : String) : Response :=
  ⟨403, [("content-type", "text/plain; charset=utf-8")],
    .text ("CORS request forbidden: " ++ what ++ " not allowed")⟩

/-- The headers that a browser wants to send are all allowed. -/
def allowsHeaders (names : String) : Bool :=
  (names.splitOn ",").all fun n => allowedHeaders.contains ((Text.trimmed n).map Char.toLower)

/-- Answers a browser that asks before it sends its request. -/
def preflight (r : Request) (origin : String) : Response :=
  if !(r.header? "access-control-request-method").any allowedMethods.contains then
    forbidden "request-method"
  else if !(r.header? "access-control-request-headers").all allowsHeaders then
    forbidden "header"
  else
    ⟨200, [("access-control-allow-headers", ", ".intercalate allowedHeaders),
      ("access-control-allow-methods", ", ".intercalate allowedMethods),
      ("access-control-max-age", "3600"), ("access-control-allow-origin", origin)], .text ""⟩

/-- Answers a request, with a note that its origin is allowed. -/
def answer (s : State) (r : Request) : Response :=
  match r.header? "origin" with
  | none => answerRoute s r
  | some origin =>
    if r.method = "OPTIONS" then preflight r origin
    else (answerRoute s r).withHeader "access-control-allow-origin" origin

end Labyrinth.Feed

import Labyrinth.Json.Basic

/-!
# Requests and responses

The messages of the position feed. Names of headers are in lower case.
-/

namespace Labyrinth.Feed

structure Request where
  method : String
  path : String
  headers : List (String × String)

def Request.header? (r : Request) (name : String) : Option String := r.headers.lookup name

inductive Body where
  | json (value : Json)
  | text (s : String)

structure Response where
  status : Nat
  headers : List (String × String)
  body : Body

namespace Response

def ofJson (status : Nat) (value : Json) : Response :=
  ⟨status, [("content-type", "application/json")], .json value⟩

/-- An error with its status in the body too. -/
def error (status : Nat) (message : String) : Response :=
  .ofJson status (.object [("error", .text message), ("status_code", .int status)])

def withHeader (r : Response) (name value : String) : Response :=
  { r with headers := r.headers ++ [(name, value)] }

end Response

end Labyrinth.Feed

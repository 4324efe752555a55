import Labyrinth.Engine.Basic

/-!
# Hosts of the engine

A host is the engine as one role sees it. It remembers the first session that it joined, and refers
to that one from then on.
-/

namespace Labyrinth.Engine

/-- The engine in the hands of a role. -/
structure Host where
  role : Role
  session : Option SessionId
deriving DecidableEq

namespace Host

def ofRole (r : Role) : Host := ⟨r, none⟩

/-- The first session that lets the role in is kept for good. -/
def afterJoin (h : Host) (id : SessionId) : Except JoinError Unit → Host
  | .ok () => { h with session := h.session <|> some id }
  | .error _ => h

def notJoined (h : Host) : String := "role " ++ h.role.text ++ " has not joined a session"

def status (h : Host) (e : Engine) (now : Nat) : Except String Status × Engine :=
  match h.session with
  | none => (.error h.notJoined, e)
  | some id => e.status id now

def send (h : Host) (e : Engine) (token : String) (now : Nat) : Except String Unit × Engine :=
  match h.session with
  | none => (.error h.notJoined, e)
  | some id => e.send h.role id token now

def observe (h : Host) (e : Engine) : Option Observation := h.session >>= e.observe h.role

end Host

end Labyrinth.Engine

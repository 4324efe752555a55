/-!
# Retrying

A retry loop makes an attempt, and after an attempt that failed for the moment it pauses and makes
the next one. It stops at a success, at a failure for good, after an attempt that failed later than
the deadline, or when it is cancelled. The loop is a machine: each answer and each end of a pause
leads to its next move. Polling is the same loop with "not yet" as the failure for the moment.
-/

namespace Labyrinth

namespace Retry

/-- How long to pause between two attempts, and for how long to go on. -/
structure Policy where
  interval : Nat
  deadline : Option Nat
deriving DecidableEq, Inhabited

/-- What came of an attempt. -/
inductive Answer (ε α : Type) where
  | done (value : α)
  /-- It failed for the moment. -/
  | busy (reason : ε)
  /-- It failed for good. -/
  | fatal (reason : ε)

/-- How a loop ended. One that was cancelled forgets its attempts. -/
inductive Outcome (ε α : Type) where
  | done (value : α) (attempts elapsed : Nat)
  | late (last : ε) (attempts elapsed : Nat)
  | fatal (reason : ε) (attempts : Nat)
  | cancelled

/-- What a loop waits for. -/
inductive Wait where
  | answer
  | pause
deriving DecidableEq

end Retry

/-- A loop with the attempts that it has started. -/
structure Retry where
  policy : Retry.Policy
  startedAt : Nat
  attempts : Nat
deriving DecidableEq

namespace Retry

/-- What a loop does next. -/
inductive Move (ε α : Type) where
  | wait (loop : Retry) (what : Wait)
  | stop (outcome : Outcome ε α)

def ofPolicy (policy : Policy) (now : Nat) : Retry := ⟨policy, now, 0⟩

/-- The deadline lies before the time that has passed. -/
def isLate (r : Retry) (now : Nat) : Bool :=
  match r.policy.deadline with
  | none => false
  | some d => decide (d < now - r.startedAt)

theorem isLate_eq_false_iff {r : Retry} {now : Nat} :
    r.isLate now = false ↔ ∀ d ∈ r.policy.deadline, now ≤ r.startedAt + d := by
  rw [isLate]
  cases r.policy.deadline with
  | none => simp
  | some d => simp [Nat.add_comm]

/-- Makes the next attempt unless the loop is cancelled. -/
def next {ε α : Type} (r : Retry) (cancelled : Bool) : Move ε α :=
  if cancelled then .stop .cancelled else .wait { r with attempts := r.attempts + 1 } .answer

def start {ε α : Type} (policy : Policy) (now : Nat) (cancelled : Bool) : Move ε α :=
  (ofPolicy policy now).next cancelled

/-- Goes on after an answer. A success counts however late it comes. -/
def answered {ε α : Type} (r : Retry) (now : Nat) : Answer ε α → Move ε α
  | .done a => .stop (.done a r.attempts (now - r.startedAt))
  | .fatal e => .stop (.fatal e r.attempts)
  | .busy e =>
    if r.isLate now then .stop (.late e r.attempts (now - r.startedAt)) else .wait r .pause

/-- Goes on after a pause, which was cut short if it was not long enough. -/
def woken {ε α : Type} (r : Retry) (rested cancelled : Bool) : Move ε α :=
  if rested then r.next cancelled else .stop .cancelled

/-! ## Polling -/

/-- Why a poll has no success to report. -/
inductive Pending (ε : Type) where
  | notYet
  | failed (reason : ε)
deriving DecidableEq

/-- How a poll ended. A poll that failed for good gives its reason. -/
inductive PollOutcome (ε : Type) where
  | satisfied (polls elapsed : Nat)
  | late (polls elapsed : Nat)
  | cancelled
  | failed (reason : ε)
deriving DecidableEq

/-- What a probe means to the loop: an error ends it, "not yet" does not. -/
def pollAnswer {ε : Type} : Except ε Bool → Answer (Pending ε) Unit
  | .ok true => .done ()
  | .ok false => .busy .notYet
  | .error e => .fatal (.failed e)

/-- What the end of the loop means to the poll. No loop fails for good with "not yet". -/
def Outcome.poll {ε : Type} : Outcome (Pending ε) Unit → PollOutcome ε
  | .done _ polls elapsed => .satisfied polls elapsed
  | .late _ polls elapsed => .late polls elapsed
  | .fatal (.failed e) _ => .failed e
  | .fatal .notYet _ => .cancelled
  | .cancelled => .cancelled

end Retry

end Labyrinth

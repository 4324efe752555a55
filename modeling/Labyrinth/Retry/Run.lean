import Labyrinth.Retry.Basic
import Labyrinth.Time.Cancellation

/-!
# Running a retry loop

A loop is run against an operation whose answers and durations are known. The run keeps when each
attempt was made and when the loop stopped.
-/

namespace Labyrinth.Retry

/-- An operation: for the number of an attempt and its time, how long the answer takes and what it
is. -/
abbrev Operation (ε α : Type) := Nat → Nat → Nat × Answer ε α

/-- A run that has ended. Each call is the number of an attempt and its time. -/
structure Run (ε α : Type) where
  outcome : Outcome ε α
  calls : List (Nat × Nat)
  returnedAt : Nat

/-- Runs a loop from one of its moves at time `now`. The calls so far are kept latest first. Without
fuel there is no run. -/
def run {ε α : Type} (c : Cancellation) (op : Operation ε α) :
    Nat → List (Nat × Nat) → Nat → Move ε α → Option (Run ε α)
  | _, calls, now, .stop outcome => some ⟨outcome, calls.reverse, now⟩
  | 0, _, _, .wait _ _ => none
  | fuel + 1, calls, now, .wait r .answer =>
    let (span, answer) := op r.attempts now
    run c op fuel ((r.attempts, now) :: calls) (now + span) (r.answered (now + span) answer)
  | fuel + 1, calls, now, .wait r .pause =>
    let nap := c.nap now r.policy.interval
    run c op fuel calls nap.wokenAt (r.woken nap.rested (c.reached nap.wokenAt))

def runFromStart {ε α : Type} (policy : Policy) (c : Cancellation) (op : Operation ε α)
    (fuel : Nat) : Option (Run ε α) :=
  run c op fuel [] 0 (start policy 0 (c.reached 0))

end Labyrinth.Retry

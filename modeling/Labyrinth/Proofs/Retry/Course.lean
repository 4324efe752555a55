import Labyrinth.Retry.Run
import Mathlib.Algebra.GroupWithZero.Nat

/-!
# The course of a retry loop

All ways in which a loop can go on before an attempt, whatever the operation answers. Every course is
that of a run.
-/

namespace Labyrinth.Retry

variable {ε α : Type} {policy : Policy} {c : Cancellation} {op : Operation ε α} {start made now : Nat}
  {r : Run ε α} {calls : List (Nat × Nat)}

/-- The run from a time at which a loop, started at `start`, has `made` attempts behind it and is
about to make the next one. -/
inductive Course (policy : Policy) (c : Cancellation) (op : Operation ε α) (start : Nat) :
    Nat → Nat → Run ε α → Prop where
  | cancelled {made now : Nat} (reached : c.reached now) :
      Course policy c op start made now ⟨.cancelled, [], now⟩
  | done {made now span : Nat} {a : α} (live : c.reached now = false)
      (answer : op (made + 1) now = (span, .done a)) :
      Course policy c op start made now
        ⟨.done a (made + 1) (now + span - start), [(made + 1, now)], now + span⟩
  | fatal {made now span : Nat} {e : ε} (live : c.reached now = false)
      (answer : op (made + 1) now = (span, .fatal e)) :
      Course policy c op start made now ⟨.fatal e (made + 1), [(made + 1, now)], now + span⟩
  | late {made now span : Nat} {e : ε} (live : c.reached now = false)
      (answer : op (made + 1) now = (span, .busy e))
      (late : isLate ⟨policy, start, made + 1⟩ (now + span)) :
      Course policy c op start made now
        ⟨.late e (made + 1) (now + span - start), [(made + 1, now)], now + span⟩
  | cut {made now span : Nat} {e : ε} (live : c.reached now = false)
      (answer : op (made + 1) now = (span, .busy e))
      (punctual : isLate ⟨policy, start, made + 1⟩ (now + span) = false)
      (cut : (c.nap (now + span) policy.interval).rested = false) :
      Course policy c op start made now
        ⟨.cancelled, [(made + 1, now)], (c.nap (now + span) policy.interval).wokenAt⟩
  | again {made now span : Nat} {e : ε} {r : Run ε α} (live : c.reached now = false)
      (answer : op (made + 1) now = (span, .busy e))
      (punctual : isLate ⟨policy, start, made + 1⟩ (now + span) = false)
      (rested : (c.nap (now + span) policy.interval).rested)
      (rest : Course policy c op start (made + 1) (c.nap (now + span) policy.interval).wokenAt r) :
      Course policy c op start made now ⟨r.outcome, (made + 1, now) :: r.calls, r.returnedAt⟩

theorem next_cancelled {loop : Retry} : (loop.next true : Move ε α) = .stop .cancelled := rfl

theorem next_live {loop : Retry} :
    (loop.next false : Move ε α) = .wait { loop with attempts := loop.attempts + 1 } .answer := rfl

theorem run_answer {span fuel : Nat} {answer : Answer ε α}
    (h : op (made + 1) now = (span, answer)) :
    Retry.run c op (fuel + 1) calls now (.wait ⟨policy, start, made + 1⟩ .answer) =
      Retry.run c op fuel ((made + 1, now) :: calls) (now + span)
        (answered ⟨policy, start, made + 1⟩ (now + span) answer) := by
  rw [Retry.run, h]

theorem Course.run_eq (h : Course policy c op start made now r) (calls : List (Nat × Nat)) :
    ∃ fuel, Retry.run c op fuel calls now (next ⟨policy, start, made⟩ (c.reached now)) =
      some ⟨r.outcome, calls.reverse ++ r.calls, r.returnedAt⟩ := by
  induction h generalizing calls with
  | cancelled reached =>
    refine ⟨0, ?_⟩
    rw [reached, next_cancelled, Retry.run, List.append_nil]
  | done live answer =>
    refine ⟨1, ?_⟩
    rw [live, next_live, run_answer answer, answered, Retry.run, List.reverse_cons]
  | fatal live answer =>
    refine ⟨1, ?_⟩
    rw [live, next_live, run_answer answer, answered, Retry.run, List.reverse_cons]
  | late live answer late =>
    refine ⟨1, ?_⟩
    rw [live, next_live, run_answer answer, answered, if_pos late, Retry.run, List.reverse_cons]
  | cut live answer punctual cut =>
    refine ⟨2, ?_⟩
    rw [live, next_live, run_answer answer, answered, punctual, if_neg Bool.false_ne_true, Retry.run,
      woken, cut, if_neg Bool.false_ne_true, Retry.run, List.reverse_cons]
  | @again made now span e r live answer punctual rested rest ih =>
    obtain ⟨fuel, hrun⟩ := ih ((made + 1, now) :: calls)
    refine ⟨fuel + 2, ?_⟩
    rw [live, next_live, run_answer answer, answered, punctual, if_neg Bool.false_ne_true, Retry.run,
      woken, rested, if_pos rfl, hrun, List.reverse_cons, List.append_assoc, List.singleton_append]

end Labyrinth.Retry

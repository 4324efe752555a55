import Labyrinth.Proofs.Retry.Attempts
import Mathlib.Data.List.Chain

/-!
# Deadlines

A loop with a positive interval and a deadline ends if it is not cancelled. How many attempts it can
make, when it makes them and how it closes follow from its course.
-/

namespace Labyrinth.Retry

variable {ε α : Type} {policy : Policy} {deadline : Nat} {op : Operation ε α} {start made now : Nat}
  {r : Run ε α}

/-! ## Courses with a deadline -/

section Course

variable (hdeadline : policy.deadline = some deadline)

include hdeadline

theorem isLate_iff {n : Nat} : isLate ⟨policy, start, n⟩ now ↔ deadline < now - start := by
  rw [isLate, hdeadline, decide_eq_true_eq]

theorem le_of_punctual {n : Nat} (h : isLate ⟨policy, start, n⟩ now = false) :
    now ≤ start + deadline :=
  isLate_eq_false_iff.mp h deadline hdeadline

theorem exists_course (hinterval : 0 < policy.interval) (op : Operation ε α) (start made now : Nat) :
    ∃ r, Course policy none op start made now r :=
  exists_course_of_bounded hinterval
    (fun _ hgoesOn _ => Nat.lt_succ_of_le (hgoesOn.punctual deadline hdeadline)) made now

end Course

namespace Course

variable (h : Course policy none op start made now r)

include h

theorem head?_calls : r.calls.head? = some (made + 1, now) := by
  cases h with
  | cancelled reached => cases reached
  | done | fatal | late | cut | again => rfl

theorem isChain_calls (hdeadline : policy.deadline = some deadline) :
    r.calls.IsChain fun a b => (∃ e, answerOf op a = .busy e) ∧ answeredAt op a ≤ start + deadline ∧
      b.2 = answeredAt op a + policy.interval := by
  induction h with
  | cancelled => exact .nil
  | done | fatal | late | cut => exact .singleton _
  | again live answer punctual rested rest ih =>
    refine List.isChain_cons.mpr ⟨fun b hb => ?_, ih⟩
    rw [rest.head?_calls] at hb
    obtain rfl := Option.some.inj hb
    rw [answeredAt, answerOf, answer]
    exact ⟨⟨_, rfl⟩, le_of_punctual hdeadline punctual, rfl⟩

theorem exists_last (hdeadline : policy.deadline = some deadline) :
    ∃ call, r.calls.getLast? = some call ∧ r.returnedAt = answeredAt op call ∧
      r.outcome = (answerOf op call).closing call.1 (r.returnedAt - start) ∧
      ∀ e, answerOf op call = .busy e → deadline < r.returnedAt - start := by
  rcases h.decided with ⟨-, hreached⟩ | ⟨call, hlast, hnot, hreturned, houtcome⟩
  · cases hreached
  · refine ⟨call, hlast, hreturned, houtcome, fun e hanswer => ?_⟩
    rw [hreturned]
    exact (isLate_iff hdeadline).mp (isLate_of_not_goesOn hnot hanswer (n := call.1))

theorem start_le (hdeadline : policy.deadline = some deadline)
    (hnow : now ≤ start + deadline + policy.interval) :
    ∀ call ∈ r.calls, call.2 ≤ start + deadline + policy.interval := by
  induction h with
  | cancelled => exact List.forall_mem_nil _
  | done | fatal | late | cut => exact List.forall_mem_singleton.mpr hnow
  | again _ _ punctual _ _ ih =>
    have hle := le_of_punctual hdeadline punctual
    exact List.forall_mem_cons.mpr ⟨hnow, ih (Nat.add_le_add_right hle _)⟩

theorem length_calls_le (hinterval : 0 < policy.interval) (hdeadline : policy.deadline = some deadline)
    (hnow : now ≤ start + deadline + policy.interval) :
    r.calls.length ≤ (start + deadline + policy.interval - now) / policy.interval + 1 := by
  induction h with
  | cancelled => exact Nat.zero_le _
  | done | fatal | late | cut => exact Nat.le_add_left _ _
  | @again made now span e r live answer punctual rested rest ih =>
    have hle := le_of_punctual hdeadline punctual
    have hrest := ih (Nat.add_le_add_right hle _)
    have hspan : start + deadline + policy.interval - (now + span + policy.interval) + policy.interval ≤
        start + deadline + policy.interval - now := by omega
    calc r.calls.length + 1
        ≤ (start + deadline + policy.interval - (now + span + policy.interval)) / policy.interval +
            1 + 1 := Nat.add_le_add_right hrest 1
      _ = (start + deadline + policy.interval - (now + span + policy.interval) + policy.interval) /
            policy.interval + 1 := by rw [Nat.add_div_right _ hinterval]
      _ ≤ (start + deadline + policy.interval - now) / policy.interval + 1 :=
          Nat.add_le_add_right (Nat.div_le_div_right hspan) 1

theorem instant (hinterval : 0 < policy.interval) (hdeadline : policy.deadline = some deadline)
    (hnow : now = start + made * policy.interval) (hmade : made ≤ deadline / policy.interval + 1)
    (hbusy : ∀ call ∈ r.calls, (op call.1 call.2).1 = 0 ∧ ∃ e, answerOf op call = .busy e) :
    r.calls.length + made = deadline / policy.interval + 2 ∧
      r.returnedAt = start + (deadline / policy.interval + 1) * policy.interval := by
  induction h with
  | cancelled reached => cases reached
  | done _ answer =>
    obtain ⟨-, e, he⟩ := List.forall_mem_singleton.mp hbusy
    rw [answerOf, answer] at he
    cases he
  | fatal _ answer =>
    obtain ⟨-, e, he⟩ := List.forall_mem_singleton.mp hbusy
    rw [answerOf, answer] at he
    cases he
  | @late made now span e _ answer late =>
    obtain ⟨hspan, -⟩ := List.forall_mem_singleton.mp hbusy
    rw [answer] at hspan
    obtain rfl : span = 0 := hspan
    have hlate := (isLate_iff hdeadline).mp late
    have hlt : deadline / policy.interval < made := by
      rw [Nat.div_lt_iff_lt_mul hinterval]
      omega
    obtain rfl : made = deadline / policy.interval + 1 := Nat.le_antisymm hmade hlt
    exact ⟨Nat.add_comm _ _, hnow⟩
  | cut _ _ _ cut => cases cut
  | @again made now span e r _ answer punctual _ _ ih =>
    obtain ⟨⟨hspan, -⟩, hrest⟩ := List.forall_mem_cons.mp hbusy
    rw [answer] at hspan
    obtain rfl : span = 0 := hspan
    have hle := le_of_punctual hdeadline punctual
    have hmade' : made ≤ deadline / policy.interval := by
      rw [Nat.le_div_iff_mul_le hinterval]
      omega
    have hnext : now + policy.interval = start + (made + 1) * policy.interval := by
      rw [hnow, Nat.succ_mul, Nat.add_assoc]
    obtain ⟨hlength, hreturned⟩ := ih hnext (Nat.succ_le_succ hmade') hrest
    exact ⟨by rw [List.length_cons]; omega, hreturned⟩

end Course

/-! ## Runs with a deadline -/

/-- The run of a loop that was started at a time and keeps to its deadline. -/
structure Punctual (policy : Policy) (deadline : Nat) (op : Operation ε α) (start : Nat)
    (r : Run ε α) : Prop where
  count : r.calls.length ≤ deadline / policy.interval + 2
  numbers : r.calls.map Prod.fst = List.range' 1 r.calls.length
  first : r.calls.head? = some (1, start)
  soon : ∀ call ∈ r.calls, call.2 ≤ start + deadline + policy.interval
  /-- There is no attempt after a success, after a failure for good, and after an answer that comes
  later than the deadline. After any other answer the next one is made an interval later. -/
  followed : r.calls.IsChain fun a b => (∃ e, answerOf op a = .busy e) ∧
    answeredAt op a ≤ start + deadline ∧ b.2 = answeredAt op a + policy.interval
  /-- The loop ends when its last attempt is answered, and as this answer says. -/
  closed : ∃ call, r.calls.getLast? = some call ∧ r.returnedAt = answeredAt op call ∧
    r.outcome = (answerOf op call).closing r.calls.length (r.returnedAt - start)
  late : ∀ e attempts elapsed, r.outcome = .late e attempts elapsed → deadline < elapsed
  /-- If no attempt takes any time and all of them fail for the moment, none is left out. -/
  instant : (∀ call ∈ r.calls, (op call.1 call.2).1 = 0 ∧ ∃ e, answerOf op call = .busy e) →
    r.calls.length = deadline / policy.interval + 2 ∧
      r.returnedAt = start + (deadline / policy.interval + 1) * policy.interval

theorem Course.punctual (h : Course policy none op start 0 start r) (hinterval : 0 < policy.interval)
    (hdeadline : policy.deadline = some deadline) : Punctual policy deadline op start r where
  count := by
    have hlength := h.length_calls_le hinterval hdeadline (by omega)
    rwa [show start + deadline + policy.interval - start = deadline + policy.interval by omega,
      Nat.add_div_right _ hinterval] at hlength
  numbers := h.numbers
  first := h.head?_calls
  soon := h.start_le hdeadline (by omega)
  followed := h.isChain_calls hdeadline
  closed := by
    obtain ⟨call, hlast, hreturned, houtcome, -⟩ := h.exists_last hdeadline
    exact ⟨call, hlast, hreturned, by rw [houtcome, h.number_last hlast]⟩
  late := by
    obtain ⟨call, -, -, houtcome, hlate⟩ := h.exists_last hdeadline
    intro e attempts elapsed heq
    rw [houtcome] at heq
    cases hanswer : answerOf op call with
    | busy e' =>
      rw [hanswer] at heq
      cases heq
      exact hlate _ hanswer
    | done | fatal =>
      rw [hanswer] at heq
      cases heq
  instant hbusy := h.instant hinterval hdeadline (by omega) (Nat.zero_le _) hbusy

/-- What a result means to a loop, given the errors after which it tries again. -/
def Answer.judge (isRetriable : ε → Bool) : Except ε α → Answer ε α
  | .ok a => .done a
  | .error e => if isRetriable e then .busy e else .fatal e

/-- The operation with its results judged. -/
def judged (isRetriable : ε → Bool) (op : Nat → Nat → Nat × Except ε α) : Operation ε α :=
  fun attempt now => ((op attempt now).1, .judge isRetriable (op attempt now).2)

/-- Whatever an operation answers and however long that takes, a loop that is not cancelled ends and
keeps to its deadline. A 32-bit counter is enough for its attempts. -/
theorem run_punctual (hinterval : 0 < policy.interval) (hdeadline : policy.deadline = some deadline)
    (hfits : deadline / policy.interval + 2 < UInt32.size) (isRetriable : ε → Bool)
    (op : Nat → Nat → Nat × Except ε α) (now : Nat) :
    ∃ fuel r, Retry.run none (judged isRetriable op) fuel [] now (Retry.start policy now false) =
        some r ∧
      Punctual policy deadline (judged isRetriable op) now r ∧
      ∀ call ∈ r.calls, call.1 < UInt32.size := by
  obtain ⟨r, hr⟩ := exists_course hdeadline hinterval (judged isRetriable op) now 0 now
  obtain ⟨fuel, hrun⟩ := hr.run_eq []
  have hpunctual := hr.punctual hinterval hdeadline
  refine ⟨fuel, r, hrun, hpunctual, fun call hcall => ?_⟩
  have hnumber : call.1 ∈ List.range' 1 r.calls.length :=
    hpunctual.numbers ▸ List.mem_map_of_mem hcall
  have hcount := hpunctual.count
  rw [List.mem_range'_1] at hnumber
  omega

/-- It succeeds at its fourth attempt, and fails for the moment before that. -/
def fourthTime (attempt _now : Nat) : Nat × Except String Nat :=
  (0, if attempt < 4 then .error "busy" else .ok attempt)

/-- A success counts that comes after the deadline. -/
theorem run_punctual_fourthTime :
    0 < 300 ∧ 600 / 300 + 2 < UInt32.size ∧ ∃ fuel r,
      Retry.run none (judged (· == "busy") fourthTime) fuel [] 0
          (Retry.start ⟨300, some 600⟩ 0 false) = some r ∧
        Punctual ⟨300, some 600⟩ 600 (judged (· == "busy") fourthTime) 0 r ∧
        ∀ call ∈ r.calls, call.1 < UInt32.size :=
  ⟨by decide, by decide, run_punctual (by decide) rfl (by decide) _ fourthTime 0⟩

example : Retry.run none (judged (· == "busy") fourthTime) 7 [] 0
    (Retry.start ⟨300, some 600⟩ 0 false) =
      some ⟨.done 4 4 900, [(1, 0), (2, 300), (3, 600), (4, 900)], 900⟩ := by
  rfl

end Labyrinth.Retry

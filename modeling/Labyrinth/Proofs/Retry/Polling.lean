import Labyrinth.Proofs.Retry.Attempts

/-!
# Polling

A poll is a retry loop in disguise: what the loop makes of the answers is turned back into what the
poll says. The poll says what the probes have found.
-/

namespace Labyrinth.Retry

variable {ε : Type} {policy : Policy} {c : Cancellation} {probe : Nat → Nat → Nat × Except ε Bool}
  {start : Nat} {call : Nat × Nat} {r : Run (Pending ε) Unit}

/-- A probe as the operation of a loop. -/
def polled (probe : Nat → Nat → Nat × Except ε Bool) : Operation (Pending ε) Unit :=
  fun attempt now => ((probe attempt now).1, pollAnswer (probe attempt now).2)

/-- What a probe, given by its number and its time, has found. -/
def findingOf (probe : Nat → Nat → Nat × Except ε Bool) (call : Nat × Nat) : Except ε Bool :=
  (probe call.1 call.2).2

/-- The first probe that finds anything but "not yet". -/
structure Settles (policy : Policy) (c : Cancellation) (probe : Nat → Nat → Nat × Except ε Bool)
    (start : Nat) (call : Nat × Nat) : Prop where
  made : Makes policy c (polled probe) start call
  finding : findingOf probe call ≠ .ok false
  before : ∀ earlier, Makes policy c (polled probe) start earlier → earlier.1 < call.1 →
    findingOf probe earlier = .ok false

/-- What a poll, started at a time, says and what it means. -/
structure Faithful (policy : Policy) (c : Cancellation) (probe : Nat → Nat → Nat × Except ε Bool)
    (start : Nat) : Prop where
  satisfied : ∀ polls elapsed,
    (∃ r, Returns policy c (polled probe) start r ∧ r.outcome.poll = .satisfied polls elapsed) ↔
      ∃ call, Settles policy c probe start call ∧ findingOf probe call = .ok true ∧
        call.1 = polls ∧ answeredAt (polled probe) call - start = elapsed
  failed : ∀ e,
    (∃ r, Returns policy c (polled probe) start r ∧ r.outcome.poll = .failed e) ↔
      ∃ call, Settles policy c probe start call ∧ findingOf probe call = .error e
  /-- A poll is late if its last probe is the first one later than the deadline. -/
  late : ∀ r polls elapsed, Returns policy c (polled probe) start r →
    r.outcome.poll = .late polls elapsed → ∃ deadline last,
      policy.deadline = some deadline ∧ r.calls.getLast? = some last ∧ last.1 = polls ∧
      answeredAt (polled probe) last - start = elapsed ∧ deadline < elapsed ∧
      ∀ call ∈ r.calls, findingOf probe call = .ok false ∧
        (call.1 < polls → answeredAt (polled probe) call ≤ start + deadline)
  /-- Only a cancellation cancels a poll, and never an error. -/
  cancelled : ∀ r, Returns policy c (polled probe) start r → r.outcome.poll = .cancelled →
    r.outcome = .cancelled ∧ c.reached r.returnedAt
  /-- All probes are counted. -/
  counted : ∀ r, Returns policy c (polled probe) start r →
    r.calls.map Prod.fst = List.range' 1 r.calls.length ∧
      match r.outcome.poll with
      | .satisfied polls _ | .late polls _ => r.calls.length = polls
      | .failed e => ∃ call, r.calls.getLast? = some call ∧ r.calls.length = call.1 ∧
          findingOf probe call = .error e
      | .cancelled => ∀ call ∈ r.calls, findingOf probe call = .ok false
  unique : ∀ r r', Returns policy c (polled probe) start r →
    Returns policy c (polled probe) start r' → r = r'

theorem answerOf_polled : answerOf (polled probe) call = pollAnswer (findingOf probe call) := rfl

theorem GoesOn.finding (h : GoesOn policy (polled probe) start call) :
    findingOf probe call = .ok false := by
  obtain ⟨e, hbusy⟩ := h.busy
  rw [answerOf_polled] at hbusy
  cases hfinding : findingOf probe call with
  | error e => rw [hfinding] at hbusy; cases hbusy
  | ok found =>
    cases found with
    | false => rfl
    | true => rw [hfinding] at hbusy; cases hbusy

theorem poll_closing (found : Except ε Bool) (polls elapsed : Nat) :
    ((pollAnswer found).closing polls elapsed).poll =
      match found with
      | .ok true => .satisfied polls elapsed
      | .ok false => .late polls elapsed
      | .error e => .failed e := by
  cases found with
  | error e => rfl
  | ok found => cases found <;> rfl

namespace Settles

theorem of_makes (h : Makes policy c (polled probe) start call)
    (hfinding : findingOf probe call ≠ .ok false) : Settles policy c probe start call :=
  ⟨h, hfinding, fun _ hearlier hlt => (hearlier.goesOn_of_lt h hlt).finding⟩

theorem returns (h : Settles policy c probe start call) :
    ∃ r, Returns policy c (polled probe) start r ∧
      r.outcome = (pollAnswer (findingOf probe call)).closing call.1
        (answeredAt (polled probe) call - start) := by
  obtain ⟨r, hr, -, hreturned, houtcome⟩ :=
    h.made.returns_of_not_goesOn fun hgoesOn => h.finding hgoesOn.finding
  exact ⟨r, hr, hreturned ▸ houtcome⟩

end Settles

/-- How a poll came to say what it says. Unless it was cancelled, its last probe made it say so. -/
inductive Concluded (policy : Policy) (c : Cancellation) (probe : Nat → Nat → Nat × Except ε Bool)
    (start : Nat) (r : Run (Pending ε) Unit) : PollOutcome ε → Prop where
  | satisfied {last : Nat × Nat} (lastly : r.calls.getLast? = some last)
      (settles : Settles policy c probe start last) (found : findingOf probe last = .ok true) :
      Concluded policy c probe start r
        (.satisfied last.1 (answeredAt (polled probe) last - start))
  | failed {last : Nat × Nat} {e : ε} (lastly : r.calls.getLast? = some last)
      (settles : Settles policy c probe start last) (found : findingOf probe last = .error e) :
      Concluded policy c probe start r (.failed e)
  | late {last : Nat × Nat} (lastly : r.calls.getLast? = some last)
      (found : findingOf probe last = .ok false)
      (late : ¬GoesOn policy (polled probe) start last) :
      Concluded policy c probe start r (.late last.1 (answeredAt (polled probe) last - start))
  | cancelled (outcome : r.outcome = .cancelled) (reached : c.reached r.returnedAt) :
      Concluded policy c probe start r .cancelled

namespace Returns

variable (h : Returns policy c (polled probe) start r)

include h

theorem concluded : Concluded policy c probe start r r.outcome.poll := by
  have hcourse := returns_iff.mp h
  rcases hcourse.decided with ⟨houtcome, hreached⟩ | ⟨last, hlast, hnot, hreturned, houtcome⟩
  · rw [houtcome]
    exact .cancelled houtcome hreached
  · have hmade := hcourse.mem_calls_iff.mp (List.mem_of_getLast? hlast)
    rw [houtcome, hreturned, answerOf_polled, poll_closing]
    cases hfound : findingOf probe last with
    | error e => exact .failed hlast (.of_makes hmade (hfound ▸ nofun)) hfound
    | ok found =>
      cases found with
      | true => exact .satisfied hlast (.of_makes hmade (hfound ▸ nofun)) hfound
      | false => exact .late hlast hfound hnot

theorem goesOn_of_cancelled (hcancelled : r.outcome = .cancelled) (hmem : call ∈ r.calls) :
    GoesOn policy (polled probe) start call := by
  refine Classical.byContradiction fun hnot => ?_
  obtain ⟨r', hr', -, -, houtcome⟩ :=
    ((returns_iff.mp h).mem_calls_iff.mp hmem).returns_of_not_goesOn hnot
  obtain rfl := h.unique hr'
  exact Answer.closing_ne_cancelled _ (houtcome.symm.trans hcancelled)

theorem goesOn_or_eq {last : Nat × Nat} (hlast : r.calls.getLast? = some last)
    (hmem : call ∈ r.calls) : GoesOn policy (polled probe) start call ∨ call = last := by
  have hcourse := returns_iff.mp h
  have hmade := hcourse.mem_calls_iff.mp hmem
  have hmade' := hcourse.mem_calls_iff.mp (List.mem_of_getLast? hlast)
  have hnumber : call.1 ∈ List.range' 1 r.calls.length :=
    hcourse.numbers ▸ List.mem_map_of_mem hmem
  have hle : call.1 ≤ last.1 := by
    rw [List.mem_range'_1] at hnumber
    rw [hcourse.number_last hlast]
    omega
  rcases Nat.lt_or_eq_of_le hle with hlt | heq
  · exact .inl (hmade.goesOn_of_lt hmade' hlt)
  · exact .inr (hmade.unique hmade' heq)

/-- A 32-bit counter is enough for the polls that are reported, if the poll does not last for that
many intervals. -/
theorem polls_lt (hfits : r.returnedAt < start + (UInt32.size - 1) * policy.interval)
    {polls elapsed : Nat}
    (hpoll : r.outcome.poll = .satisfied polls elapsed ∨ r.outcome.poll = .late polls elapsed) :
    polls < UInt32.size := by
  have hconcluded := h.concluded
  rcases hpoll with hsatisfied | hlate
  · rw [hsatisfied] at hconcluded
    cases hconcluded with
    | satisfied lastly => exact h.number_lt hfits _ (List.mem_of_getLast? lastly)
  · rw [hlate] at hconcluded
    cases hconcluded with
    | late lastly => exact h.number_lt hfits _ (List.mem_of_getLast? lastly)

end Returns

/-- A poll says what its probes have found, whatever they find, however long they take and whenever
it is cancelled. -/
theorem poll_faithful (policy : Policy) (c : Cancellation) (probe : Nat → Nat → Nat × Except ε Bool)
    (start : Nat) : Faithful policy c probe start where
  satisfied polls elapsed := by
    constructor
    · rintro ⟨r, hr, hpoll⟩
      have hconcluded := hr.concluded
      rw [hpoll] at hconcluded
      cases hconcluded with
      | satisfied _ settles found => exact ⟨_, settles, found, rfl, rfl⟩
    · rintro ⟨call, hsettles, hfound, rfl, rfl⟩
      obtain ⟨r, hr, houtcome⟩ := hsettles.returns
      exact ⟨r, hr, by rw [houtcome, poll_closing, hfound]⟩
  failed e := by
    constructor
    · rintro ⟨r, hr, hpoll⟩
      have hconcluded := hr.concluded
      rw [hpoll] at hconcluded
      cases hconcluded with
      | failed _ settles found => exact ⟨_, settles, found⟩
    · rintro ⟨call, hsettles, hfound⟩
      obtain ⟨r, hr, houtcome⟩ := hsettles.returns
      exact ⟨r, hr, by rw [houtcome, poll_closing, hfound]⟩
  late r polls elapsed hr hpoll := by
    have hconcluded := hr.concluded
    rw [hpoll] at hconcluded
    cases hconcluded with
    | late lastly found late =>
      obtain ⟨deadline, hdeadline, hlate⟩ := exists_deadline_of_not_goesOn late (by
        rw [answerOf_polled, found]; rfl)
      refine ⟨deadline, _, hdeadline, lastly, rfl, rfl, hlate, fun call hmem => ?_⟩
      rcases hr.goesOn_or_eq lastly hmem with hgoesOn | rfl
      · exact ⟨hgoesOn.finding, fun _ => hgoesOn.punctual deadline hdeadline⟩
      · exact ⟨found, fun hlt => absurd hlt (Nat.lt_irrefl _)⟩
  cancelled r hr hpoll := by
    have hconcluded := hr.concluded
    rw [hpoll] at hconcluded
    cases hconcluded with
    | cancelled outcome reached => exact ⟨outcome, reached⟩
  counted r hr := by
    have hcourse := returns_iff.mp hr
    have hconcluded := hr.concluded
    refine ⟨hcourse.numbers, ?_⟩
    generalize r.outcome.poll = said at hconcluded
    cases hconcluded with
    | satisfied lastly | late lastly => exact (hcourse.number_last lastly).symm
    | failed lastly _ found => exact ⟨_, lastly, (hcourse.number_last lastly).symm, found⟩
    | cancelled outcome => exact fun call hmem => (hr.goesOn_of_cancelled outcome hmem).finding
  unique _ _ := Returns.unique

/-- The second probe finds what is looked for, though later than the deadline. -/
example : (Retry.run none (polled fun n _ => (40, (.ok (n == 2) : Except String Bool))) 4 [] 0
    (Retry.start ⟨100, some 50⟩ 0 false)).map (fun r => (r.outcome.poll, r.calls)) =
      some (.satisfied 2 180, [(1, 0), (2, 140)]) := by
  rfl

end Labyrinth.Retry

import Labyrinth.Proofs.Retry.Attempts

/-!
# Cancelling a retry loop

What a cancellation does to a loop is told by the same loop without it: the cancellation takes away
the attempts from its time on, and nothing else that has happened by then.
-/

namespace Labyrinth.Retry

variable {ε α : Type} {policy : Policy} {op : Operation ε α} {start stop : Nat} {call : Nat × Nat}
  {r : Run ε α}

theorem makes_some_iff :
    Makes policy (some stop) op start call ↔ Makes policy none op start call ∧ call.2 < stop := by
  constructor
  · intro h
    induction h with
    | first live => exact ⟨.first rfl, Nat.not_le.mp (of_decide_eq_false live)⟩
    | again _ hgoesOn live ih =>
      exact ⟨.again ih.1 hgoesOn rfl, Nat.not_le.mp (of_decide_eq_false live)⟩
  · rintro ⟨h, hbefore⟩
    induction h with
    | first => exact .first (decide_eq_false (Nat.not_le.mpr hbefore))
    | @again call _ hgoesOn _ ih =>
      have hlt : call.2 < stop :=
        Nat.lt_of_le_of_lt (Nat.le_trans (Nat.le_add_right _ _) (Nat.le_add_right _ _)) hbefore
      exact .again (ih hlt) hgoesOn (decide_eq_false (Nat.not_le.mpr hbefore))

/-- What becomes of a loop, started at a time, that is cancelled at a time. -/
structure Cancellable (policy : Policy) (op : Operation ε α) (start stop : Nat) : Prop where
  /-- There is no attempt from the cancellation on, and before it there are the same as without. -/
  attempts : ∀ r, Returns policy (some stop) op start r →
    r.calls.map Prod.fst = List.range' 1 r.calls.length ∧
      ∀ call, call ∈ r.calls ↔ Makes policy none op start call ∧ call.2 < stop
  unstarted : stop ≤ start → Returns policy (some stop) op start ⟨.cancelled, [], start⟩
  /-- A loop that an attempt would end without the cancellation ends so, even if the attempt is
  answered later than that. -/
  closed : ∀ call, Makes policy none op start call → call.2 < stop → ¬GoesOn policy op start call →
    ∃ r, Returns policy (some stop) op start r ∧ r.calls.getLast? = some call ∧
      r.returnedAt = answeredAt op call ∧
      r.outcome = (answerOf op call).closing call.1 (answeredAt op call - start)
  /-- A loop that is cancelled during an attempt which it would go on after waits for the answer. -/
  inFlight : ∀ call, Makes policy none op start call → call.2 < stop →
    stop ≤ answeredAt op call → GoesOn policy op start call →
    ∃ r, Returns policy (some stop) op start r ∧ r.calls.getLast? = some call ∧
      r.returnedAt = answeredAt op call ∧ r.outcome = .cancelled
  /-- A loop that is cancelled in a pause ends at that very time. -/
  paused : ∀ call, Makes policy none op start call → GoesOn policy op start call →
    answeredAt op call < stop → stop ≤ answeredAt op call + policy.interval →
    ∃ r, Returns policy (some stop) op start r ∧ r.calls.getLast? = some call ∧
      r.returnedAt = stop ∧ r.outcome = .cancelled
  cancelled : ∀ r, Returns policy (some stop) op start r → r.outcome = .cancelled →
    stop ≤ r.returnedAt
  unaffected : ∀ r : Run ε α, r.returnedAt < stop →
    (Returns policy (some stop) op start r ↔ Returns policy none op start r)
  unique : ∀ r r', Returns policy (some stop) op start r → Returns policy (some stop) op start r' →
    r = r'
  ends : 0 < policy.interval → ∃ r, Returns policy (some stop) op start r

/-- What cancels a loop that would go on is the answer or the pause, whichever the cancellation
comes into. -/
theorem Makes.returns_of_goesOn (h : Makes policy none op start call) (hbefore : call.2 < stop)
    (hgoesOn : GoesOn policy op start call) (hstop : stop ≤ answeredAt op call + policy.interval) :
    ∃ r, Returns policy (some stop) op start r ∧ r.calls.getLast? = some call ∧
      r.returnedAt = max (answeredAt op call) stop ∧ r.outcome = .cancelled := by
  obtain ⟨r, hr, hlast, hreturned, houtcome⟩ :=
    (makes_some_iff.mpr ⟨h, hbefore⟩).returns_of_reached hgoesOn (decide_eq_true hstop)
  exact ⟨r, hr, hlast, hreturned.trans (Cancellation.wokenAt_nap_of_le hstop), houtcome⟩

theorem Course.stop_le_of_cancelled {made now : Nat}
    (h : Course policy (some stop) op start made now r) (hcancelled : r.outcome = .cancelled) :
    stop ≤ r.returnedAt := by
  rcases h.decided with ⟨-, hreached⟩ | ⟨call, -, -, -, houtcome⟩
  · exact of_decide_eq_true hreached
  · exact absurd (houtcome.symm.trans hcancelled) (Answer.closing_ne_cancelled _)

/-- A cancellation stops a loop between two attempts, and as soon as it can. -/
theorem run_cancellable (policy : Policy) (op : Operation ε α) (start stop : Nat) :
    Cancellable policy op start stop where
  attempts r h := by
    have hcourse := returns_iff.mp h
    exact ⟨hcourse.numbers, fun call => hcourse.mem_calls_iff.trans makes_some_iff⟩
  unstarted h := returns_iff.mpr (.cancelled (decide_eq_true h))
  closed call h hbefore hlast := by
    obtain ⟨r, hr, hcall, hreturned, houtcome⟩ :=
      (makes_some_iff.mpr ⟨h, hbefore⟩).returns_of_not_goesOn hlast
    exact ⟨r, hr, hcall, hreturned, hreturned ▸ houtcome⟩
  inFlight call h hbefore hstop hgoesOn := by
    obtain ⟨r, hr, hcall, hreturned, houtcome⟩ :=
      h.returns_of_goesOn hbefore hgoesOn (Nat.le_trans hstop (Nat.le_add_right _ _))
    exact ⟨r, hr, hcall, hreturned.trans (Nat.max_eq_left hstop), houtcome⟩
  paused call h hgoesOn hanswered hstop := by
    have hbefore : call.2 < stop := Nat.lt_of_le_of_lt (Nat.le_add_right _ _) hanswered
    obtain ⟨r, hr, hcall, hreturned, houtcome⟩ := h.returns_of_goesOn hbefore hgoesOn hstop
    exact ⟨r, hr, hcall, hreturned.trans (Nat.max_eq_right (Nat.le_of_lt hanswered)), houtcome⟩
  cancelled r h houtcome := (returns_iff.mp h).stop_le_of_cancelled houtcome
  unaffected r h := by
    have live : Cancellation.reached (some stop) r.returnedAt = false :=
      decide_eq_false (Nat.not_le.mpr h)
    rw [returns_iff, returns_iff]
    exact ⟨fun hr => hr.congr live rfl, fun hr => hr.congr rfl live⟩
  unique _ _ := Returns.unique
  ends hinterval := by
    obtain ⟨r, hr⟩ := exists_course_of_bounded (c := some stop) hinterval
      (fun call _ live => Nat.lt_of_le_of_lt (Nat.le_add_right _ _)
        (Nat.not_le.mp (of_decide_eq_false live))) 0 start
    exact ⟨r, returns_iff.mpr hr⟩

/-- The second pause would last until 600. -/
example : Retry.run (some 450) (fun _ _ => (0, .busy "full")) 5 [] 0
    (Retry.start ⟨300, none⟩ 0 false : Move String Nat) =
      some ⟨.cancelled, [(1, 0), (2, 300)], 450⟩ := by
  rfl

end Labyrinth.Retry

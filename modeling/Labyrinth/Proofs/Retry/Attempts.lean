import Labyrinth.Proofs.Retry.Course

/-!
# The attempts of a retry loop

Which attempts a loop makes is settled one by one: each follows from the answer to the one before,
whether or not the loop ever ends. A loop that ends has made all of them, and the last one says how it
ended unless it was cancelled.
-/

namespace Labyrinth.Retry

variable {ε α : Type} {policy : Policy} {c : Cancellation} {op : Operation ε α} {start made now : Nat}
  {call call' : Nat × Nat} {r r' : Run ε α}

/-- When an attempt, given by its number and its time, is answered. -/
def answeredAt (op : Operation ε α) (call : Nat × Nat) : Nat :=
  call.2 + (op call.1 call.2).1

def answerOf (op : Operation ε α) (call : Nat × Nat) : Answer ε α := (op call.1 call.2).2

/-- How a loop ends after an answer, if it does. -/
def Answer.closing (attempts elapsed : Nat) : Answer ε α → Outcome ε α
  | .done a => .done a attempts elapsed
  | .busy e => .late e attempts elapsed
  | .fatal e => .fatal e attempts

theorem Answer.closing_ne_cancelled (answer : Answer ε α) {attempts elapsed : Nat} :
    answer.closing attempts elapsed ≠ .cancelled := by
  cases answer <;> exact nofun

/-- An attempt that a loop goes on after: it failed for the moment, and by the deadline. -/
structure GoesOn (policy : Policy) (op : Operation ε α) (start : Nat) (call : Nat × Nat) : Prop where
  busy : ∃ e, answerOf op call = .busy e
  punctual : ∀ deadline ∈ policy.deadline, answeredAt op call ≤ start + deadline

/-- The attempts of a loop, whether or not it ends. -/
inductive Makes (policy : Policy) (c : Cancellation) (op : Operation ε α) (start : Nat) :
    Nat × Nat → Prop where
  | first (live : c.reached start = false) : Makes policy c op start (1, start)
  | again {call : Nat × Nat} (before : Makes policy c op start call)
      (goesOn : GoesOn policy op start call)
      (live : c.reached (answeredAt op call + policy.interval) = false) :
      Makes policy c op start (call.1 + 1, answeredAt op call + policy.interval)

/-- A loop that is started at a time ends with this run. -/
def Returns (policy : Policy) (c : Cancellation) (op : Operation ε α) (start : Nat) (r : Run ε α) :
    Prop :=
  ∃ fuel, Retry.run c op fuel [] start (Retry.start policy start (c.reached start)) = some r

/-! ## Runs and courses -/

theorem run_stop {fuel : Nat} {calls : List (Nat × Nat)} {outcome : Outcome ε α} :
    Retry.run c op fuel calls now (.stop outcome) = some ⟨outcome, calls.reverse, now⟩ := by
  cases fuel <;> rfl

theorem run_unique {fuel fuel' : Nat} {calls : List (Nat × Nat)} {move : Move ε α}
    (h : Retry.run c op fuel calls now move = some r)
    (h' : Retry.run c op fuel' calls now move = some r') : r = r' := by
  induction fuel generalizing fuel' calls now move with
  | zero =>
    cases move with
    | stop outcome =>
      rw [run_stop] at h h'
      exact Option.some.inj (h.symm.trans h')
    | wait loop what => cases h
  | succ fuel ih =>
    cases move with
    | stop outcome =>
      rw [run_stop] at h h'
      exact Option.some.inj (h.symm.trans h')
    | wait loop what =>
      cases fuel' with
      | zero => cases h'
      | succ fuel' => cases what <;> exact ih h h'

theorem Returns.unique (h : Returns policy c op start r) (h' : Returns policy c op start r') :
    r = r' := by
  obtain ⟨fuel, hrun⟩ := h
  obtain ⟨fuel', hrun'⟩ := h'
  exact run_unique hrun hrun'

/-! ## Courses by their attempts -/

theorem goesOn_iff {n span : Nat} {answer : Answer ε α} (h : op n now = (span, answer)) :
    GoesOn policy op start (n, now) ↔
      (∃ e, answer = .busy e) ∧ isLate ⟨policy, start, n⟩ (now + span) = false := by
  rw [isLate_eq_false_iff]
  constructor
  · rintro ⟨hbusy, hpunctual⟩
    rw [answerOf, h] at hbusy
    rw [answeredAt, h] at hpunctual
    exact ⟨hbusy, hpunctual⟩
  · rintro ⟨hbusy, hpunctual⟩
    exact ⟨by rwa [answerOf, h], by rwa [answeredAt, h]⟩

theorem GoesOn.isLate_eq_false (h : GoesOn policy op start call) {n : Nat} :
    isLate ⟨policy, start, n⟩ (answeredAt op call) = false :=
  isLate_eq_false_iff.mpr h.punctual

theorem isLate_of_not_goesOn {e : ε} (h : ¬GoesOn policy op start call)
    (hanswer : answerOf op call = .busy e) {n : Nat} :
    isLate ⟨policy, start, n⟩ (answeredAt op call) :=
  eq_true_of_ne_false fun hpunctual => h ⟨⟨e, hanswer⟩, isLate_eq_false_iff.mp hpunctual⟩

theorem exists_deadline_of_not_goesOn {e : ε} (h : ¬GoesOn policy op start call)
    (hanswer : answerOf op call = .busy e) :
    ∃ deadline, policy.deadline = some deadline ∧ deadline < answeredAt op call - start := by
  cases hdeadline : policy.deadline with
  | none => exact absurd ⟨⟨e, hanswer⟩, by rw [hdeadline]; exact nofun⟩ h
  | some deadline =>
    refine ⟨deadline, rfl, Nat.lt_of_not_le fun hle => h ⟨⟨e, hanswer⟩, fun d hd => ?_⟩⟩
    obtain rfl := Option.some.inj (hdeadline.symm.trans hd)
    omega

theorem answered_of_not_goesOn (h : ¬GoesOn policy op start call) :
    answered ⟨policy, start, call.1⟩ (answeredAt op call) (answerOf op call) =
      .stop ((answerOf op call).closing call.1 (answeredAt op call - start)) := by
  cases hanswer : answerOf op call with
  | done | fatal => rfl
  | busy e => exact if_pos (isLate_of_not_goesOn h hanswer)

theorem GoesOn.answered (h : GoesOn policy op start call) :
    answered ⟨policy, start, call.1⟩ (answeredAt op call) (answerOf op call) =
      .wait ⟨policy, start, call.1⟩ .pause := by
  obtain ⟨e, hanswer⟩ := h.busy
  rw [hanswer, Retry.answered, h.isLate_eq_false, if_neg Bool.false_ne_true]

theorem run_attempt {fuel : Nat} {calls : List (Nat × Nat)} :
    Retry.run c op (fuel + 1) calls now (.wait ⟨policy, start, made + 1⟩ .answer) =
      Retry.run c op fuel ((made + 1, now) :: calls) (answeredAt op (made + 1, now))
        (answered ⟨policy, start, made + 1⟩ (answeredAt op (made + 1, now))
          (answerOf op (made + 1, now))) :=
  rfl

/-- A nap that is cut short ends after the cancellation, so it is enough to look at that. -/
theorem woken_eq_next (loop : Retry) (span : Nat) :
    (loop.woken (c.nap now span).rested (c.reached (c.nap now span).wokenAt) : Move ε α) =
      loop.next (c.reached (c.nap now span).wokenAt) := by
  cases hrested : (c.nap now span).rested with
  | false => rw [Cancellation.reached_wokenAt_nap hrested]; rfl
  | true => rfl

namespace Course

theorem closed (live : c.reached now = false) (h : ¬GoesOn policy op start (made + 1, now)) :
    Course policy c op start made now
      ⟨(answerOf op (made + 1, now)).closing (made + 1) (answeredAt op (made + 1, now) - start),
        [(made + 1, now)], answeredAt op (made + 1, now)⟩ := by
  have hattempt : op (made + 1) now = ((op (made + 1) now).1, answerOf op (made + 1, now)) := rfl
  cases hanswer : answerOf op (made + 1, now) with
  | done a => exact .done live (hanswer ▸ hattempt)
  | fatal e => exact .fatal live (hanswer ▸ hattempt)
  | busy e => exact .late live (hanswer ▸ hattempt) (isLate_of_not_goesOn h hanswer)

theorem goesOn (live : c.reached now = false) (h : GoesOn policy op start (made + 1, now))
    (rest : Course policy c op start (made + 1)
      (c.nap (answeredAt op (made + 1, now)) policy.interval).wokenAt r) :
    Course policy c op start made now ⟨r.outcome, (made + 1, now) :: r.calls, r.returnedAt⟩ := by
  obtain ⟨e, hbusy⟩ := h.busy
  have hanswer : op (made + 1) now = ((op (made + 1) now).1, .busy e) := by rw [← hbusy, answerOf]
  cases hrested : (c.nap (answeredAt op (made + 1, now)) policy.interval).rested with
  | true => exact .again live hanswer h.isLate_eq_false hrested rest
  | false =>
    have hreached := Cancellation.reached_wokenAt_nap hrested
    cases rest with
    | cancelled => exact .cut live hanswer h.isLate_eq_false hrested
    | done hlive | fatal hlive | late hlive | cut hlive | again hlive =>
      rw [hreached] at hlive
      cases hlive

/-- A course is one attempt after the other. After each the loop closes or goes on. -/
@[elab_as_elim]
theorem byAttempts {motive : ∀ made now r, Course policy c op start made now r → Prop}
    (cancelled : ∀ made now (reached : c.reached now), motive made now _ (.cancelled reached))
    (closed : ∀ made now (live : c.reached now = false)
      (last : ¬GoesOn policy op start (made + 1, now)), motive made now _ (.closed live last))
    (goesOn : ∀ made now r (live : c.reached now = false)
      (goesOn : GoesOn policy op start (made + 1, now))
      (rest : Course policy c op start (made + 1)
        (c.nap (answeredAt op (made + 1, now)) policy.interval).wokenAt r),
      motive _ _ r rest → motive made now _ (.goesOn live goesOn rest))
    (h : Course policy c op start made now r) : motive made now r h := by
  induction h with
  | cancelled reached => exact cancelled _ _ reached
  | @done made now span a live answer =>
    have hclosed := closed made now live
    simp only [goesOn_iff answer, answeredAt, answerOf, answer] at hclosed
    exact hclosed fun ⟨⟨e, he⟩, _⟩ => nomatch he
  | @fatal made now span e live answer =>
    have hclosed := closed made now live
    simp only [goesOn_iff answer, answeredAt, answerOf, answer] at hclosed
    exact hclosed fun ⟨⟨e, he⟩, _⟩ => nomatch he
  | @late made now span e live answer late =>
    have hclosed := closed made now live
    simp only [goesOn_iff answer, answeredAt, answerOf, answer] at hclosed
    exact hclosed fun ⟨_, hpunctual⟩ => Bool.false_ne_true (hpunctual.symm.trans late)
  | @cut made now span e live answer punctual cut =>
    have hgoesOn := goesOn made now ⟨.cancelled, [], (c.nap (now + span) policy.interval).wokenAt⟩ live
    simp only [goesOn_iff answer, answeredAt, answer] at hgoesOn
    have hreached := Cancellation.reached_wokenAt_nap cut
    exact hgoesOn ⟨⟨e, rfl⟩, punctual⟩ (.cancelled hreached) (cancelled _ _ hreached)
  | @again made now span e r live answer punctual rested rest ih =>
    have hgoesOn := goesOn made now r live
    simp only [goesOn_iff answer, answeredAt, answer] at hgoesOn
    exact hgoesOn ⟨⟨e, rfl⟩, punctual⟩ rest ih

end Course

theorem exists_course_of_run {fuel : Nat} {calls : List (Nat × Nat)}
    (h : Retry.run c op fuel calls now (next ⟨policy, start, made⟩ (c.reached now)) = some r) :
    ∃ r', Course policy c op start made now r' ∧
      r = ⟨r'.outcome, calls.reverse ++ r'.calls, r'.returnedAt⟩ := by
  induction fuel using Nat.strongRecOn generalizing calls made now with
  | ind fuel ih =>
    cases hlive : c.reached now with
    | true =>
      rw [hlive, next_cancelled, run_stop] at h
      exact ⟨_, .cancelled hlive, by rw [List.append_nil]; exact (Option.some.inj h).symm⟩
    | false =>
      rw [hlive, next_live] at h
      cases fuel with
      | zero => cases h
      | succ fuel =>
        rw [run_attempt] at h
        by_cases hgoesOn : GoesOn policy op start (made + 1, now)
        · rw [hgoesOn.answered] at h
          cases fuel with
          | zero => cases h
          | succ fuel =>
            rw [Retry.run, woken_eq_next] at h
            obtain ⟨r', hrest, rfl⟩ := ih fuel (by omega) h
            exact ⟨_, .goesOn hlive hgoesOn hrest,
              by rw [List.reverse_cons, List.append_assoc, List.singleton_append]⟩
        · rw [answered_of_not_goesOn hgoesOn, run_stop, List.reverse_cons] at h
          exact ⟨_, .closed hlive hgoesOn, (Option.some.inj h).symm⟩

theorem returns_iff : Returns policy c op start r ↔ Course policy c op start 0 start r := by
  constructor
  · rintro ⟨fuel, hrun⟩
    rw [Retry.start, ofPolicy] at hrun
    obtain ⟨r', hcourse, rfl⟩ := exists_course_of_run hrun
    exact hcourse
  · exact fun h => h.run_eq []

/-- A loop comes to its end if it goes on only before some time, since its pauses bring it nearer. -/
theorem exists_course_of_bounded (hinterval : 0 < policy.interval) {bound : Nat}
    (hbound : ∀ call, GoesOn policy op start call →
      c.reached (answeredAt op call + policy.interval) = false → answeredAt op call < bound)
    (made now : Nat) : ∃ r, Course policy c op start made now r := by
  induction hn : bound - now using Nat.strongRecOn generalizing made now with
  | ind n ih =>
    cases hlive : c.reached now with
    | true => exact ⟨_, .cancelled hlive⟩
    | false =>
      by_cases hgoesOn : GoesOn policy op start (made + 1, now)
      · cases hnext : c.reached (answeredAt op (made + 1, now) + policy.interval) with
        | true =>
          exact ⟨_, .goesOn hlive hgoesOn
            (.cancelled (Cancellation.reached_wokenAt_of_reached hnext))⟩
        | false =>
          have hbefore := hbound _ hgoesOn hnext
          have hle : now ≤ answeredAt op (made + 1, now) := Nat.le_add_right _ _
          obtain ⟨r, hr⟩ := ih _ (by omega) (made + 1)
            (answeredAt op (made + 1, now) + policy.interval) rfl
          refine ⟨_, .goesOn hlive hgoesOn (r := r) ?_⟩
          rwa [Cancellation.nap_of_live hnext]
      · exact ⟨_, .closed hlive hgoesOn⟩

namespace Course

theorem numbers (h : Course policy c op start made now r) :
    r.calls.map Prod.fst = List.range' (made + 1) r.calls.length := by
  induction h using byAttempts with
  | cancelled => rfl
  | closed => rfl
  | goesOn _ _ _ _ _ _ ih => rw [List.map_cons, ih, List.length_cons, List.range'_succ]

theorem le_returnedAt (h : Course policy c op start made now r) : now ≤ r.returnedAt := by
  induction h using byAttempts with
  | cancelled => exact Nat.le_refl _
  | closed => exact Nat.le_add_right _ _
  | goesOn _ _ _ _ _ _ ih =>
    exact Nat.le_trans (Nat.le_add_right _ _) (Nat.le_trans (Cancellation.le_wokenAt_nap ..) ih)

theorem call_le_returnedAt (h : Course policy c op start made now r) :
    ∀ call ∈ r.calls, call.2 ≤ r.returnedAt := by
  induction h using byAttempts with
  | cancelled => exact List.forall_mem_nil _
  | closed => exact List.forall_mem_singleton.mpr (Nat.le_add_right _ _)
  | goesOn _ _ _ hlive hgoesOn hrest ih =>
    exact List.forall_mem_cons.mpr ⟨(goesOn hlive hgoesOn hrest).le_returnedAt, ih⟩

theorem decided (h : Course policy c op start made now r) :
    r.outcome = .cancelled ∧ c.reached r.returnedAt ∨
      ∃ call, r.calls.getLast? = some call ∧ ¬GoesOn policy op start call ∧
        r.returnedAt = answeredAt op call ∧
        r.outcome = (answerOf op call).closing call.1 (r.returnedAt - start) := by
  induction h using byAttempts with
  | cancelled _ _ hreached => exact .inl ⟨rfl, hreached⟩
  | closed made now _ hlast => exact .inr ⟨(made + 1, now), rfl, hlast, rfl, rfl⟩
  | goesOn _ _ _ _ _ _ ih =>
    rcases ih with hcancelled | ⟨call, hlast, hclosed⟩
    · exact .inl hcancelled
    · exact .inr ⟨call, by rw [List.getLast?_cons, hlast]; rfl, hclosed⟩

theorem number_last (h : Course policy c op start 0 start r) (hlast : r.calls.getLast? = some call) :
    call.1 = r.calls.length := by
  have hnumber : (r.calls.map Prod.fst).getLast? = some call.1 := by
    rw [List.getLast?_map, hlast, Option.map_some]
  rw [h.numbers, List.getLast?_range'] at hnumber
  split at hnumber
  · cases hnumber
  · have := Option.some.inj hnumber
    omega

theorem mem_calls_of_live (h : Course policy c op start made now r) (live : c.reached now = false) :
    (made + 1, now) ∈ r.calls := by
  cases h with
  | cancelled hreached => exact absurd (live.symm.trans hreached) Bool.false_ne_true
  | done | fatal | late | cut | again => exact List.mem_cons_self

theorem exists_rest (h : Course policy c op start made now r) (live : c.reached now = false)
    (hgoesOn : GoesOn policy op start (made + 1, now)) :
    ∃ rest, Course policy c op start (made + 1)
        (c.nap (answeredAt op (made + 1, now)) policy.interval).wokenAt rest ∧
      r.calls = (made + 1, now) :: rest.calls := by
  induction h using byAttempts with
  | cancelled _ _ hreached => exact absurd (live.symm.trans hreached) Bool.false_ne_true
  | closed _ _ _ hclosed => exact absurd hgoesOn hclosed
  | goesOn _ _ rest _ _ hrest _ => exact ⟨rest, hrest, rfl⟩

theorem congr {c' : Cancellation} (h : Course policy c op start made now r)
    (live : c.reached r.returnedAt = false) (live' : c'.reached r.returnedAt = false) :
    Course policy c' op start made now r := by
  induction h using byAttempts with
  | cancelled _ _ hreached => exact absurd (live.symm.trans hreached) Bool.false_ne_true
  | closed made now hlive hlast =>
    exact .closed (Cancellation.reached_eq_false_of_le (Nat.le_add_right _ _) live') hlast
  | goesOn made now r hlive hgoesOn hrest ih =>
    have hnow := (goesOn hlive hgoesOn hrest).le_returnedAt
    have hwake := hrest.le_returnedAt
    have hnap := Cancellation.nap_of_live_wokenAt (Cancellation.reached_eq_false_of_le hwake live)
    rw [hnap] at hwake ih
    have hnap' := Cancellation.nap_of_live (Cancellation.reached_eq_false_of_le hwake live')
    exact .goesOn (Cancellation.reached_eq_false_of_le hnow live') hgoesOn (hnap' ▸ ih live live')

end Course

/-! ## The attempts that are made -/

namespace Makes

theorem exists_eq_succ (h : Makes policy c op start call) : ∃ made now, call = (made + 1, now) := by
  cases h with
  | first => exact ⟨0, start, rfl⟩
  | again => exact ⟨_, _, rfl⟩

theorem number_pos (h : Makes policy c op start call) : 0 < call.1 := by
  obtain ⟨made, now, rfl⟩ := h.exists_eq_succ
  exact Nat.succ_pos made

theorem spaced (h : Makes policy c op start call) :
    start + (call.1 - 1) * policy.interval ≤ call.2 := by
  induction h with
  | first => exact Nat.le_of_eq (by rw [Nat.sub_self, Nat.zero_mul, Nat.add_zero])
  | @again call before _ _ ih =>
    obtain ⟨made, now, rfl⟩ := before.exists_eq_succ
    calc start + (made + 1) * policy.interval
        = start + made * policy.interval + policy.interval := by rw [Nat.succ_mul, Nat.add_assoc]
      _ ≤ now + policy.interval := Nat.add_le_add_right ih _
      _ ≤ answeredAt op (made + 1, now) + policy.interval :=
          Nat.add_le_add_right (Nat.le_add_right _ _) _

theorem live (h : Makes policy c op start call) : c.reached call.2 = false := by
  cases h with
  | first live => exact live
  | again _ _ live => exact live

theorem unique (h : Makes policy c op start call) (h' : Makes policy c op start call')
    (hnumber : call.1 = call'.1) : call = call' := by
  induction h generalizing call' with
  | first =>
    cases h' with
    | first => rfl
    | again before' => exact absurd (Nat.succ.inj hnumber).symm (Nat.ne_of_gt before'.number_pos)
  | again before _ _ ih =>
    cases h' with
    | first => exact absurd (Nat.succ.inj hnumber) (Nat.ne_of_gt before.number_pos)
    | again before' => rw [ih before' (Nat.succ.inj hnumber)]

theorem goesOn_of_lt (h : Makes policy c op start call) (h' : Makes policy c op start call')
    (hlt : call.1 < call'.1) : GoesOn policy op start call := by
  induction h' with
  | first => exact absurd hlt (Nat.not_lt.mpr h.number_pos)
  | again before' hgoesOn _ ih =>
    rcases Nat.lt_succ_iff_lt_or_eq.mp hlt with hbefore | heq
    · exact ih hbefore
    · exact h.unique before' heq ▸ hgoesOn

theorem exists_course (h : Makes policy c op start call) (hnumber : call.1 = made + 1)
    (hr : Course policy c op start made call.2 r) :
    ∃ r', Course policy c op start 0 start r' ∧ r.calls <:+ r'.calls ∧ r'.outcome = r.outcome ∧
      r'.returnedAt = r.returnedAt := by
  induction h generalizing made r with
  | first =>
    obtain rfl : 0 = made := Nat.succ.inj hnumber
    exact ⟨r, hr, List.suffix_refl _, rfl, rfl⟩
  | @again call before hgoesOn live ih =>
    obtain rfl : call.1 = made := Nat.succ.inj hnumber
    obtain ⟨m, t, rfl⟩ := before.exists_eq_succ
    have hrest : Course policy c op start (m + 1)
        (c.nap (answeredAt op (m + 1, t)) policy.interval).wokenAt r := by
      rw [Cancellation.nap_of_live live]
      exact hr
    obtain ⟨r', hr', hsuffix, hends⟩ := ih rfl (.goesOn before.live hgoesOn hrest)
    exact ⟨r', hr', (List.suffix_cons _ _).trans hsuffix, hends⟩

theorem returns_of_not_goesOn (h : Makes policy c op start call)
    (hlast : ¬GoesOn policy op start call) :
    ∃ r, Returns policy c op start r ∧ r.calls.getLast? = some call ∧
      r.returnedAt = answeredAt op call ∧
      r.outcome = (answerOf op call).closing call.1 (r.returnedAt - start) := by
  obtain ⟨made, now, rfl⟩ := h.exists_eq_succ
  obtain ⟨r, hr, ⟨before, hcalls⟩, houtcome, hreturned⟩ := h.exists_course rfl (.closed h.live hlast)
  refine ⟨r, returns_iff.mpr hr, ?_, hreturned, by rw [hreturned]; exact houtcome⟩
  rw [← hcalls, List.getLast?_concat]

theorem returns_of_reached (h : Makes policy c op start call) (hgoesOn : GoesOn policy op start call)
    (hreached : c.reached (answeredAt op call + policy.interval)) :
    ∃ r, Returns policy c op start r ∧ r.calls.getLast? = some call ∧
      r.returnedAt = (c.nap (answeredAt op call) policy.interval).wokenAt ∧
      r.outcome = .cancelled := by
  obtain ⟨made, now, rfl⟩ := h.exists_eq_succ
  have hrest : Course policy c op start (made + 1) _ ⟨.cancelled, [], _⟩ :=
    .cancelled (Cancellation.reached_wokenAt_of_reached hreached)
  obtain ⟨r, hr, ⟨before, hcalls⟩, houtcome, hreturned⟩ :=
    h.exists_course rfl (.goesOn h.live hgoesOn hrest)
  refine ⟨r, returns_iff.mpr hr, ?_, hreturned, houtcome⟩
  rw [← hcalls, List.getLast?_concat]

end Makes

namespace Course

theorem makes (h : Course policy c op start made now r)
    (hnow : c.reached now = false → Makes policy c op start (made + 1, now)) :
    ∀ call ∈ r.calls, Makes policy c op start call := by
  induction h using byAttempts with
  | cancelled => exact List.forall_mem_nil _
  | closed _ _ hlive => exact List.forall_mem_singleton.mpr (hnow hlive)
  | goesOn made now _ hlive hgoesOn _ ih =>
    refine List.forall_mem_cons.mpr ⟨hnow hlive, ih fun hwoken => ?_⟩
    have hnap := Cancellation.nap_of_live_wokenAt hwoken
    rw [hnap] at hwoken ⊢
    exact .again (hnow hlive) hgoesOn hwoken

theorem exists_from (h : Course policy c op start 0 start r) (hmade : Makes policy c op start call) :
    ∃ made r', call.1 = made + 1 ∧ Course policy c op start made call.2 r' ∧ r'.calls <:+ r.calls := by
  induction hmade with
  | first => exact ⟨0, r, rfl, h, List.suffix_refl _⟩
  | @again call before hgoesOn live ih =>
    obtain ⟨made, r', hnumber, hr', hsuffix⟩ := ih
    obtain ⟨n, t⟩ := call
    obtain rfl : n = made + 1 := hnumber
    obtain ⟨rest, hrest, hcalls⟩ := hr'.exists_rest before.live hgoesOn
    rw [Cancellation.nap_of_live live] at hrest
    exact ⟨made + 1, rest, rfl, hrest, (hcalls ▸ List.suffix_cons _ _).trans hsuffix⟩

theorem mem_calls_iff (h : Course policy c op start 0 start r) :
    call ∈ r.calls ↔ Makes policy c op start call := by
  refine ⟨h.makes .first call, fun hmade => ?_⟩
  obtain ⟨made, r', hnumber, hr', hsuffix⟩ := h.exists_from hmade
  obtain ⟨n, t⟩ := call
  obtain rfl : n = made + 1 := hnumber
  exact hsuffix.subset (hr'.mem_calls_of_live hmade.live)

end Course

/-- A 32-bit counter is enough for the attempts of a loop that does not last for that many
intervals. -/
theorem Returns.number_lt (h : Returns policy c op start r)
    (hfits : r.returnedAt < start + (UInt32.size - 1) * policy.interval) :
    ∀ call ∈ r.calls, call.1 < UInt32.size := by
  intro call hmem
  refine Nat.lt_of_not_le fun hle => ?_
  have hcourse := returns_iff.mp h
  have hspaced := (hcourse.mem_calls_iff.mp hmem).spaced
  have hbefore := hcourse.call_le_returnedAt call hmem
  have hspan := Nat.mul_le_mul_right policy.interval (Nat.sub_le_sub_right hle 1)
  omega

end Labyrinth.Retry

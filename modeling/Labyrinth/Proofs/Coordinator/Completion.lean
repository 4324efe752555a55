import Labyrinth.Proofs.Coordinator.Standing

/-!
# What a completed mission has behind it

A coordinator that reports a completed mission was let in, saw that the session had begun and that
it was over at last, and carried out its plan. No call failed on the way.
-/

namespace Labyrinth.Coordinator

variable {b : Brief} {x : Cancellation} {log : List Exchange} {now : Nat} {c : Coordinator}

/-- The plan was sent once and in order, and each command was taken. Then the role quit, or the
status after the last action said that the session was over. -/
structure CarriedOut (plan : List Action) (log : List Exchange) : Prop where
  accepted : ∀ e ∈ log, e.isSend → e.isAccepted
  order : tokens log = plan.map (·.command.token) ++ [Command.quitToken] ∨
    tokens log = plan.map (·.command.token) ∧
      ∃ before e seen st after, log = before ++ e :: (seen ++ st :: after) ∧ e.isSend ∧
        (∀ q ∈ seen, q.isObservation) ∧ st.isStatus ∧ st.saysStopped ∧ ∀ q ∈ after, ¬ q.isSend

structure Complete (b : Brief) (log : List Exchange) : Prop where
  /-- The last join let the role in, and nothing failed after it. -/
  admitted : ∃ before e after, log = before ++ e :: after ∧ e.isJoin ∧ e.isAdmission ∧
    ∀ q ∈ after, ¬ q.isJoin ∧ ¬ q.isFailure
  begun : ∃ q ∈ log, q.isStatus ∧ q.saysBegun
  stopped : ∃ e, log.getLast? = some e ∧ e.isStatus ∧ e.saysStopped
  carriedOut : ∀ plan, b.plan = some plan → CarriedOut plan log

theorem History.answers (h : History b x log c now) :
    ∀ e ∈ log, Answers x e.askedAt e.request e.answer e.answeredAt := by
  induction h with
  | start => exact List.forall_mem_nil _
  | goOn _ _ answered ih =>
    refine List.forall_mem_append.mpr ⟨ih, ?_⟩
    unfold record
    split
    · exact List.forall_mem_singleton.mpr answered
    · exact List.forall_mem_nil _

theorem Answers.isStatus {e : Exchange}
    (h : Answers x e.askedAt e.request e.answer e.answeredAt) (hstatus : e.status?.isSome) :
    e.isStatus := by
  obtain ⟨request, askedAt, answer, answeredAt⟩ := e
  dsimp only at h
  cases h with
  | status => rfl
  | probe | join | send | observe | publish | nap => cases hstatus

theorem Answers.isJoin {e : Exchange}
    (h : Answers x e.askedAt e.request e.answer e.answeredAt) (hadmission : e.isAdmission) :
    e.isJoin := by
  obtain ⟨request, askedAt, answer, answeredAt⟩ := e
  dsimp only at h
  cases h with
  | join => rfl
  | probe | status | send | observe | publish | nap => cases hadmission

theorem Finished.carriedOut {plan : List Action} (h : Finished b log) (hplan : b.plan = some plan) :
    CarriedOut plan log := by
  cases h with
  | idle hnone quiet => simp [hnone] at hplan
  | quit plan' hplan' accepted order =>
    obtain rfl := Option.some.inj (hplan'.symm.trans hplan)
    exact ⟨fun e he hsend => accepted e (List.mem_filter.mpr ⟨he, hsend⟩), .inl order⟩
  | delivered plan' hplan' accepted order last =>
    obtain rfl := Option.some.inj (hplan'.symm.trans hplan)
    obtain ⟨before, e, seen, st, after, hlog, he, hseen, hst, hstop, hafter, -⟩ := last
    exact ⟨fun e he hsend => accepted e (List.mem_filter.mpr ⟨he, hsend⟩),
      .inr ⟨order, before, e, seen, st, after, hlog, he, hseen, hst, hstop, hafter⟩⟩

/-- A coordinator never reports a completed mission that was not completed. -/
theorem History.complete {report : Report} (h : History b x log c now)
    (hreport : c.report? = some report) (hcompleted : report.outcome = .completed) :
    Complete b log := by
  have hended := h.ended hreport
  rw [hcompleted] at hended
  cases hended with
  | refused _ ho => exact absurd rfl ho
  | completed e last stopped admitted finished began =>
    rw [h.stands.began, List.any_eq_true] at began
    obtain ⟨q, hq, hbegun⟩ := began
    obtain ⟨refused, e', rest, hlog, -, hjoin, hadmission, hrest⟩ := admitted
    exact {
      admitted := ⟨refused, e', rest, hlog, hjoin, hadmission, hrest⟩
      begun := ⟨q, hq, (h.answers q hq).isStatus (Option.isSome_of_any hbegun), hbegun⟩
      stopped := ⟨e, last, (h.answers e (List.mem_of_getLast? last)).isStatus
        (Option.isSome_of_any stopped), stopped⟩
      carriedOut := fun plan hplan => finished.carriedOut hplan }

theorem complete_oneStep : ∃ c report, History oneStep none stepCalls c 206 ∧
    c.report? = some report ∧ report.outcome = .completed ∧ Complete oneStep stepCalls := by
  obtain ⟨c, h, hreport⟩ := exists_history_oneStep
  exact ⟨c, _, h, hreport, rfl, h.complete hreport rfl⟩

end Labyrinth.Coordinator

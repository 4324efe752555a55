import Labyrinth.Proofs.Coordinator.Standing

/-!
# The commands that a coordinator sends

A coordinator sends nothing before it has been let in. It sends its plan in order and then quits.
After each command it pauses and looks whether the session is running, and it sends nothing more
once a command or such a look has failed.
-/

namespace Labyrinth.Coordinator

variable {b : Brief} {x : Cancellation} {log : List Exchange} {now t : Nat} {c : Coordinator}

/-- The commands of a log are sent in the right order and at the right time. -/
structure Disciplined (b : Brief) (log : List Exchange) : Prop where
  /-- Before each command a join let the role in. -/
  joined : ∀ before e after, log = before ++ e :: after → e.isSend →
    ∃ q ∈ before, q.isJoin ∧ q.isAdmission
  idle : b.plan = none → ∀ e ∈ log, ¬ e.isSend
  /-- What is sent is the beginning of the plan, or all of it and then a quit. -/
  order : ∀ plan, b.plan = some plan → tokens log <+: plan.map (·.command.token) ∨
    tokens log = plan.map (·.command.token) ++ [Command.quitToken] ∧
      ∀ e ∈ (sends log).dropLast, e.isAccepted
  /-- Between two commands there is one status, which says that the session is running. -/
  between : ∀ before e between e' after, log = before ++ e :: (between ++ e' :: after) →
    e.isSend → e'.isSend → (∀ q ∈ between, ¬ q.isSend) →
    (∃ st, between.filter Exchange.isStatus = [st] ∧ st.saysRunning) ∧
      e.answeredAt + b.settings.pacing ≤ e'.askedAt
  /-- No command follows one that was not taken. -/
  failed : ∀ before e after, log = before ++ e :: after → e.isSend → ¬ e.isAccepted →
    ∀ q ∈ after, ¬ q.isSend
  /-- No command follows a status that is asked for after a command and that fails or says that the
  session is not running. -/
  stopped : ∀ before e after, log = before ++ e :: after → e.isStatus →
    (∃ q ∈ before, q.isSend) → ¬ e.saysRunning → ∀ q ∈ after, ¬ q.isSend

/-! ## What comes before a command -/

theorem last_send_unique {before before' after after' : List Exchange} {e e' : Exchange}
    (h : before ++ e :: after = before' ++ e' :: after') (he : e.isSend) (he' : e'.isSend)
    (hafter : ∀ q ∈ after, ¬ q.isSend) (hafter' : ∀ q ∈ after', ¬ q.isSend) :
    before = before' ∧ e = e' ∧ after = after' := by
  rcases List.append_eq_append_iff.mp h with ⟨between, rfl, hrest⟩ | ⟨between, rfl, hrest⟩
  · cases between with
    | nil =>
      obtain ⟨rfl, rfl⟩ := List.cons_eq_cons.mp hrest
      exact ⟨(List.append_nil before).symm, rfl, rfl⟩
    | cons q between =>
      obtain ⟨rfl, rfl⟩ := List.cons_eq_cons.mp hrest
      exact absurd he' (hafter e' (by simp))
  · cases between with
    | nil =>
      obtain ⟨rfl, rfl⟩ := List.cons_eq_cons.mp hrest
      exact ⟨List.append_nil before', rfl, rfl⟩
    | cons q between =>
      obtain ⟨rfl, rfl⟩ := List.cons_eq_cons.mp hrest
      exact absurd he (hafter' e (by simp))

/-- Everything that a role checks before it sends a command. -/
structure Clear (b : Brief) (log : List Exchange) (now : Nat) : Prop where
  admitted : Admitted log
  accepted : ∀ e ∈ sends log, e.isAccepted
  running : ∀ before e after, log = before ++ e :: after → e.isStatus →
    (∃ q ∈ before, q.isSend) → e.saysRunning
  checked : (∀ e ∈ log, ¬ e.isSend) ∨ Checked b log now

theorem Checked.between {before seen : List Exchange} {e : Exchange} (h : Checked b log now)
    (hlog : log = before ++ e :: seen) (he : e.isSend) (hseen : ∀ q ∈ seen, ¬ q.isSend) :
    (∃ st, seen.filter Exchange.isStatus = [st] ∧ st.saysRunning) ∧
      e.answeredAt + b.settings.pacing ≤ now := by
  obtain ⟨before', e', seen', st, hlog', he', hobserved, hst, hrunning, hpaced, hle, -⟩ := h
  have hquiet : ∀ q ∈ seen' ++ [st], ¬ q.isSend :=
    forall_mem_append_singleton (fun q hq => Exchange.not_isSend_of_isObservation (hobserved q hq))
      (Exchange.not_isSend_of_isStatus hst)
  obtain ⟨rfl, rfl, rfl⟩ := last_send_unique (hlog.symm.trans hlog') he he' hseen hquiet
  have hnone : seen'.filter Exchange.isStatus = [] := by
    rw [List.filter_eq_nil_iff]
    intro q hq
    exact Exchange.not_isStatus_of_isObservation (hobserved q hq)
  refine ⟨⟨st, ?_, hrunning⟩, Nat.le_trans hpaced hle⟩
  rw [List.filter_append, hnone, List.nil_append, List.filter_cons_of_pos hst, List.filter_nil]

/-! ## One more call -/

theorem Disciplined.snoc {q : Exchange} (h : Disciplined b log) (hq : ¬ q.isSend) :
    Disciplined b (log ++ [q]) where
  joined before e after hlog he := by
    rcases append_eq_append_cons_iff.mp hlog with ⟨-, -, rfl⟩ | ⟨after', -, hlog'⟩
    · exact absurd he hq
    · exact h.joined before e after' hlog' he
  idle hplan := forall_mem_append_singleton (h.idle hplan) hq
  order plan hplan := by
    rw [tokens_append_of_not_isSend hq, sends_append_of_not_isSend hq]
    exact h.order plan hplan
  between before e between e' after hlog he he' hbetween := by
    rw [← List.cons_append, ← List.append_assoc] at hlog
    rcases append_eq_append_cons_iff.mp hlog with ⟨-, -, rfl⟩ | ⟨after', -, hlog'⟩
    · exact absurd he' hq
    · rw [List.append_assoc, List.cons_append] at hlog'
      exact h.between before e between e' after' hlog' he he' hbetween
  failed before e after hlog he hnot := by
    rcases append_eq_append_cons_iff.mp hlog with ⟨rfl, -, -⟩ | ⟨after', rfl, hlog'⟩
    · exact List.forall_mem_nil _
    · exact forall_mem_append_singleton (h.failed before e after' hlog' he hnot) hq
  stopped before e after hlog he hbefore hnot := by
    rcases append_eq_append_cons_iff.mp hlog with ⟨rfl, -, -⟩ | ⟨after', rfl, hlog'⟩
    · exact List.forall_mem_nil _
    · exact forall_mem_append_singleton (h.stopped before e after' hlog' he hbefore hnot) hq

theorem Disciplined.snoc_send {q : Exchange} (h : Disciplined b log) (clear : Clear b log now)
    (hq : q.isSend) (hasked : q.askedAt = now) (hplan : b.plan ≠ none)
    (order : ∀ plan, b.plan = some plan → tokens (log ++ [q]) <+: plan.map (·.command.token) ∨
      tokens (log ++ [q]) = plan.map (·.command.token) ++ [Command.quitToken]) :
    Disciplined b (log ++ [q]) where
  joined before e after hlog he := by
    rcases append_eq_append_cons_iff.mp hlog with ⟨-, rfl, -⟩ | ⟨after', -, hlog'⟩
    · exact clear.admitted.exists_admission
    · exact h.joined before e after' hlog' he
  idle hnone := absurd hnone hplan
  order plan hplan := by
    refine (order plan hplan).imp_right fun htokens => ⟨htokens, ?_⟩
    have hsends : sends [q] = [q] := List.filter_cons_of_pos hq
    rw [sends_append, hsends, List.dropLast_concat]
    exact clear.accepted
  between before e between e' after hlog he he' hbetween := by
    rw [← List.cons_append, ← List.append_assoc] at hlog
    rcases append_eq_append_cons_iff.mp hlog with ⟨-, hlog', rfl⟩ | ⟨after', -, hlog'⟩
    · rcases clear.checked with quiet | checked
      · exact absurd he (quiet e (by simp [hlog']))
      · rw [hasked]
        exact checked.between hlog' he hbetween
    · rw [List.append_assoc, List.cons_append] at hlog'
      exact h.between before e between e' after' hlog' he he' hbetween
  failed before e after hlog he hnot := by
    rcases append_eq_append_cons_iff.mp hlog with ⟨rfl, -, -⟩ | ⟨after', -, rfl⟩
    · exact List.forall_mem_nil _
    · exact absurd (clear.accepted e (List.mem_filter.mpr ⟨by simp, he⟩)) hnot
  stopped before e after hlog he hbefore hnot := by
    rcases append_eq_append_cons_iff.mp hlog with ⟨rfl, -, -⟩ | ⟨after', -, hlog'⟩
    · exact List.forall_mem_nil _
    · exact absurd (clear.running before e after' hlog' he hbefore) hnot

theorem Sent.disciplined_snoc {a : Action} {rest : List Action} {answer : Except String Unit}
    (sent : Sent b log (a :: rest)) (h : Disciplined b log) (admitted : Admitted log)
    (checked : (∀ e ∈ log, ¬ e.isSend) ∨ Checked b log now) :
    Disciplined b (log ++ [⟨.send a.command.token, now, .sent answer, t⟩]) := by
  obtain ⟨done, hplan, htokens⟩ := sent.plan
  refine h.snoc_send ⟨admitted, sent.accepted, sent.running, checked⟩ rfl rfl (by simp [hplan]) ?_
  intro plan hplan'
  obtain rfl := Option.some.inj (hplan.symm.trans hplan')
  refine .inl ⟨rest.map (·.command.token), ?_⟩
  rw [tokens_append, htokens, List.map_append, List.append_assoc]
  rfl

theorem Sent.disciplined_snoc_quit {answer : Except String Unit} (sent : Sent b log [])
    (h : Disciplined b log) (admitted : Admitted log)
    (checked : (∀ e ∈ log, ¬ e.isSend) ∨ Checked b log now) :
    Disciplined b (log ++ [⟨.send Command.quitToken, now, .sent answer, t⟩]) := by
  obtain ⟨done, hplan, htokens⟩ := sent.plan
  rw [List.append_nil] at hplan
  refine h.snoc_send ⟨admitted, sent.accepted, sent.running, checked⟩ rfl rfl (by simp [hplan]) ?_
  intro plan hplan'
  obtain rfl := Option.some.inj (hplan.symm.trans hplan')
  refine .inr ?_
  rw [tokens_append, htokens]
  rfl

theorem Disciplined.told {e : Event} {calls : List Exchange} (h : Disciplined b log)
    (stands : Stands b x log now c) (told : Told b x now c.phase e t calls) :
    Disciplined b (log ++ calls) := by
  generalize hphase : c.phase = p at told
  cases told with
  | sent _ a rest answer =>
    obtain ⟨admitted, sent, checked⟩ : Admitted log ∧ Sent b log (a :: rest) ∧ _ :=
      stands.behind_of_phase hphase
    exact sent.disciplined_snoc h admitted checked
  | quit _ answer =>
    obtain ⟨admitted, sent, checked⟩ : Admitted log ∧ Sent b log [] ∧ _ :=
      stands.behind_of_phase hphase
    exact sent.disciplined_snoc_quit h admitted checked
  | joined | polled | observed | checked | awaited => exact h.snoc nofun
  | probed | joinPause | beginPause | published | paced | endPause =>
    rw [List.append_nil]
    exact h

theorem disciplined_nil : Disciplined b [] where
  joined := by simp
  idle _ := List.forall_mem_nil _
  order plan _ := .inl List.nil_prefix
  between := by simp
  failed := by simp
  stopped := by simp

theorem History.disciplined (h : History b x log c now) : Disciplined b log := by
  induction h with
  | start now => exact disciplined_nil
  | goOn h asked answered ih => exact ih.told h.stands (answered.told h.stands.brief asked)

/-- Whatever the host answers, the commands are sent in order and in time, and the report counts
those that were taken. -/
theorem History.commands (h : History b x log c now) :
    Disciplined b log ∧ ∀ report, c.report? = some report →
      report.commandsSent = ((sends log).filter Exchange.isAccepted).length := by
  refine ⟨h.disciplined, fun report hreport => ?_⟩
  rw [(eq_of_report? hreport).2]
  exact h.stands.sent

theorem commands_oneStep : ∃ c, History oneStep none stepCalls c 206 ∧
    Disciplined oneStep stepCalls ∧ ∀ report, c.report? = some report →
      report.commandsSent = ((sends stepCalls).filter Exchange.isAccepted).length := by
  obtain ⟨c, h, -⟩ := exists_history_oneStep
  exact ⟨c, h, h.commands⟩

end Labyrinth.Coordinator

import Labyrinth.Proofs.Coordinator.History

/-!
# What the log of a coordinator tells

In each phase the log has a shape of its own. An answer leads from the shape of one phase to the
shape of the next, so the shapes hold in every history.
-/

namespace Labyrinth.Coordinator

/-! ## Shapes of logs -/

/-- The last join let the role in, and nothing has failed since. -/
def Admitted (log : List Exchange) : Prop :=
  ∃ refused e rest, log = refused ++ e :: rest ∧ (∀ q ∈ refused, q.isJoin) ∧ e.isJoin ∧
    e.isAdmission ∧ ∀ q ∈ rest, ¬ q.isJoin ∧ ¬ q.isFailure

/-- The plan has been sent as far as the rest. The session was running after each command. -/
structure Sent (b : Brief) (log : List Exchange) (rest : List Action) : Prop where
  plan : ∃ done, b.plan = some (done ++ rest) ∧ tokens log = done.map (·.command.token)
  accepted : ∀ e ∈ sends log, e.isAccepted
  running : ∀ before e after, log = before ++ e :: after → e.isStatus →
    (∃ q ∈ before, q.isSend) → e.saysRunning

/-- The last command was answered by time `t`, and the role has only looked around since. -/
def Paused (log : List Exchange) (t : Nat) : Prop :=
  ∃ before e seen, log = before ++ e :: seen ∧ e.isSend ∧ (∀ q ∈ seen, q.isObservation) ∧
    e.answeredAt ≤ t

/-- After the pause that follows a command, a status has just said that the session is running. -/
def Checked (b : Brief) (log : List Exchange) (now : Nat) : Prop :=
  ∃ before e seen st, log = before ++ e :: (seen ++ [st]) ∧ e.isSend ∧
    (∀ q ∈ seen, q.isObservation) ∧ st.isStatus ∧ st.saysRunning ∧
    e.answeredAt + b.settings.pacing ≤ st.askedAt ∧ st.askedAt ≤ now ∧ st.answeredAt = now

/-- After the last command, a status said that a session that had begun was not running. -/
def Delivered (log : List Exchange) : Prop :=
  ∃ before e seen st after, log = before ++ e :: (seen ++ st :: after) ∧ e.isSend ∧
    (∀ q ∈ seen, q.isObservation) ∧ st.isStatus ∧ st.saysStopped ∧ (∀ q ∈ after, ¬ q.isSend) ∧
    ∃ q ∈ before ++ e :: (seen ++ [st]), q.saysBegun

/-- The role has sent what it had to send. -/
inductive Finished (b : Brief) (log : List Exchange) : Prop where
  | idle (plan : b.plan = none) (quiet : ∀ e ∈ log, ¬ e.isSend)
  | quit (plan : List Action) (hplan : b.plan = some plan) (accepted : ∀ e ∈ sends log, e.isAccepted)
      (order : tokens log = plan.map (·.command.token) ++ [Command.quitToken])
  | delivered (plan : List Action) (hplan : b.plan = some plan)
      (accepted : ∀ e ∈ sends log, e.isAccepted) (order : tokens log = plan.map (·.command.token))
      (last : Delivered log)

/-- How a history can end, with the outcome that is reported. -/
inductive Ended (b : Brief) (x : Cancellation) (log : List Exchange) (now : Nat) (c : Coordinator) :
    Outcome → Prop where
  | cancelled (h : x.reached now) : Ended b x log now c .cancelled
  | refused (o : Outcome) (ho : o ≠ .completed) (h : ∀ e ∈ log, e.isJoin ∧ e.isFailure) :
      Ended b x log now c o
  | broken (e : Exchange) (last : log.getLast? = some e) (h : e.isFailure) (inside : ¬ e.isJoin) :
      Ended b x log now c .aborted
  | outlived (h : b.settings.ending.deadline.isSome) : Ended b x log now c .aborted
  | stopped (e : Exchange) (last : log.getLast? = some e) (h : e.saysStopped)
      (admitted : Admitted log) (failure : c.began = false → c.failure = some .neverBegan) :
      Ended b x log now c .aborted
  | completed (e : Exchange) (last : log.getLast? = some e) (h : e.saysStopped)
      (admitted : Admitted log) (finished : Finished b log) (began : c.began) :
      Ended b x log now c .completed

/-- The shape of the log in each phase. -/
def Behind (b : Brief) (x : Cancellation) (log : List Exchange) (now : Nat) (c : Coordinator) :
    Prop :=
  match c.phase with
  | .fresh => False
  | .probing _ _ _ => log = []
  | .joining _ _ => ∀ e ∈ log, e.isJoin ∧ e.isFailure
  | .awaitingBegin _ _ => Admitted log ∧ ∀ e ∈ log, ¬ e.isSend
  | .sending a rest =>
    Admitted log ∧ Sent b log (a :: rest) ∧ ((∀ e ∈ log, ¬ e.isSend) ∨ Checked b log now)
  | .observing _ rest => Admitted log ∧ Sent b log rest ∧ Paused log now
  | .publishing _ rest => Admitted log ∧ Sent b log rest ∧ Paused log now
  | .pacing rest => Admitted log ∧ Sent b log rest ∧ Paused log now
  | .checking rest =>
    Admitted log ∧ Sent b log rest ∧ ∃ t, Paused log t ∧ t + b.settings.pacing ≤ now
  | .quitting => Admitted log ∧ Sent b log [] ∧ ((∀ e ∈ log, ¬ e.isSend) ∨ Checked b log now)
  | .awaitingEnd loop _ => Admitted log ∧ Finished b log ∧ loop.policy = b.settings.ending
  | .terminated o _ => Ended b x log now c o

/-- What the coordinator keeps in mind of the log. -/
structure Keeps (b : Brief) (log : List Exchange) (c : Coordinator) : Prop where
  brief : c.brief = b
  began : c.began = log.any Exchange.saysBegun
  sent : c.commandsSent = ((sends log).filter Exchange.isAccepted).length

structure Stands (b : Brief) (x : Cancellation) (log : List Exchange) (now : Nat)
    (c : Coordinator) : Prop extends Keeps b log c where
  behind : Behind b x log now c

variable {b : Brief} {x : Cancellation} {log : List Exchange} {now : Nat} {c : Coordinator}

/-! ## Growing logs -/

theorem Admitted.snoc {q : Exchange} (h : Admitted log) (hjoin : ¬ q.isJoin)
    (hfail : ¬ q.isFailure) : Admitted (log ++ [q]) := by
  obtain ⟨refused, e, rest, rfl, hrefused, he, hadm, hrest⟩ := h
  exact ⟨refused, e, rest ++ [q], by simp, hrefused, he, hadm,
    forall_mem_append_singleton hrest ⟨hjoin, hfail⟩⟩

theorem Admitted.exists_admission (h : Admitted log) : ∃ q ∈ log, q.isJoin ∧ q.isAdmission := by
  obtain ⟨refused, e, rest, rfl, -, hjoin, hadmission, -⟩ := h
  exact ⟨e, by simp, hjoin, hadmission⟩

theorem Sent.snoc {q : Exchange} {rest : List Action} (h : Sent b log rest) (hsend : ¬ q.isSend)
    (hrun : q.isStatus → q.saysRunning) : Sent b (log ++ [q]) rest where
  plan := by
    rw [tokens_append_of_not_isSend hsend]
    exact h.plan
  accepted := by
    rw [sends_append_of_not_isSend hsend]
    exact h.accepted
  running before e after hlog he hbefore := by
    rcases append_eq_append_cons_iff.mp hlog with ⟨rfl, rfl, rfl⟩ | ⟨after', rfl, hlog'⟩
    · exact hrun he
    · exact h.running before e after' hlog' he hbefore

theorem Sent.snoc_command {a : Action} {rest : List Action} (h : Sent b log (a :: rest))
    (t u : Nat) : Sent b (log ++ [⟨.send a.command.token, t, .sent (.ok ()), u⟩]) rest where
  plan := by
    obtain ⟨done, hplan, htokens⟩ := h.plan
    refine ⟨done ++ [a], by simpa using hplan, ?_⟩
    rw [tokens_append, htokens, List.map_append]
    rfl
  accepted := by
    rw [sends_append]
    exact forall_mem_append_singleton h.accepted rfl
  running before e after hlog he hbefore := by
    rcases append_eq_append_cons_iff.mp hlog with ⟨rfl, rfl, rfl⟩ | ⟨after', rfl, hlog'⟩
    · cases he
    · exact h.running before e after' hlog' he hbefore

theorem Paused.snoc {q : Exchange} {t : Nat} (h : Paused log t) (hq : q.isObservation) :
    Paused (log ++ [q]) t := by
  obtain ⟨before, e, seen, rfl, he, hseen, ht⟩ := h
  exact ⟨before, e, seen ++ [q], by simp, he, forall_mem_append_singleton hseen hq, ht⟩

theorem Paused.mono {t t' : Nat} (h : Paused log t) (hle : t ≤ t') : Paused log t' := by
  obtain ⟨before, e, seen, hlog, he, hseen, ht⟩ := h
  exact ⟨before, e, seen, hlog, he, hseen, Nat.le_trans ht hle⟩

theorem Delivered.snoc {q : Exchange} (h : Delivered log) (hq : ¬ q.isSend) :
    Delivered (log ++ [q]) := by
  obtain ⟨before, e, seen, st, after, rfl, he, hseen, hst, hstop, hafter, hbegun⟩ := h
  exact ⟨before, e, seen, st, after ++ [q], by simp, he, hseen, hst, hstop,
    forall_mem_append_singleton hafter hq, hbegun⟩

theorem Finished.snoc {q : Exchange} (h : Finished b log) (hq : ¬ q.isSend) :
    Finished b (log ++ [q]) := by
  have hsends : sends (log ++ [q]) = sends log := sends_append_of_not_isSend hq
  have htokens : tokens (log ++ [q]) = tokens log := tokens_append_of_not_isSend hq
  cases h with
  | idle hplan quiet => exact .idle hplan (forall_mem_append_singleton quiet hq)
  | quit plan hplan accepted order =>
    exact .quit plan hplan (by rwa [hsends]) (htokens.trans order)
  | delivered plan hplan accepted order last =>
    exact .delivered plan hplan (by rwa [hsends]) (htokens.trans order) (last.snoc hq)

/-! ## What is kept in mind -/

theorem Keeps.snoc {q : Exchange} (h : Keeps b log c) (hsend : ¬ q.isSend)
    (hbegun : q.saysBegun = false) : Keeps b (log ++ [q]) c where
  brief := h.brief
  began := by
    rw [h.began, List.any_append, List.any_cons, hbegun]
    simp
  sent := by
    rw [sends_append_of_not_isSend hsend]
    exact h.sent

theorem Keeps.notice (h : Keeps b log c) (s : Status) (t u : Nat) :
    Keeps b (log ++ [⟨.status, t, .status (.ok s), u⟩]) (c.notice s) where
  brief := h.brief
  began := by
    rw [List.any_append, ← h.began]
    simp [Coordinator.notice, Exchange.saysBegun, Exchange.status?]
  sent := by
    rw [sends_append_of_not_isSend (by simp [Exchange.isSend, Exchange.token?])]
    exact h.sent

theorem Keeps.snoc_command (h : Keeps b log c) (token : String) (t u : Nat) :
    Keeps b (log ++ [⟨.send token, t, .sent (.ok ()), u⟩])
      { c with commandsSent := c.commandsSent + 1 } where
  brief := h.brief
  began := by
    rw [List.any_append, ← h.began]
    simp [Exchange.saysBegun, Exchange.status?]
  sent := by
    change c.commandsSent + 1 = _
    rw [sends_append, List.filter_append, List.length_append, ← h.sent]
    rfl

theorem Keeps.snoc_refused {token reason : String} {t t' : Nat} (h : Keeps b log c) :
    Keeps b (log ++ [⟨.send token, t, .sent (.error reason), t'⟩]) c where
  brief := h.brief
  began := by
    rw [List.any_append, ← h.began]
    simp [Exchange.saysBegun, Exchange.status?]
  sent := by
    rw [sends_append, List.filter_append, List.length_append, ← h.sent]
    rfl

/-! ## Entering a stage -/

theorem stands_awaitEnd (h : Keeps b log c) (admitted : Admitted log)
    (finished : Finished b log) : Stands b x log now (c.awaitEnd (moment x now)) := by
  unfold awaitEnd moment Retry.start Retry.next
  dsimp only
  split
  · exact ⟨⟨h.brief, h.began, h.sent⟩, Ended.cancelled ‹_›⟩
  · exact ⟨⟨h.brief, h.began, h.sent⟩, And.intro admitted ⟨finished, by rw [← h.brief]; rfl⟩⟩

theorem stands_proceed {rest : List Action} (h : Keeps b log c) (admitted : Admitted log)
    (sent : Sent b log rest) (clear : (∀ e ∈ log, ¬ e.isSend) ∨ Checked b log now) :
    Stands b x log now (c.proceed rest) := by
  cases rest with
  | nil => exact ⟨⟨h.brief, h.began, h.sent⟩, And.intro admitted ⟨sent, clear⟩⟩
  | cons a rest => exact ⟨⟨h.brief, h.began, h.sent⟩, And.intro admitted ⟨sent, clear⟩⟩

theorem Sent.of_quiet {plan : List Action} (hplan : b.plan = some plan)
    (quiet : ∀ e ∈ log, ¬ e.isSend) : Sent b log plan where
  plan := ⟨[], hplan, tokens_eq_nil_iff.mpr quiet⟩
  accepted := by
    rw [sends_eq_nil_iff.mpr quiet]
    simp
  running before e after hlog _ hsend := by
    obtain ⟨q, hq, hsend⟩ := hsend
    exact absurd hsend (quiet q (by simp [hlog, hq]))

theorem stands_activate (h : Keeps b log c) (admitted : Admitted log)
    (quiet : ∀ e ∈ log, ¬ e.isSend) : Stands b x log now (c.activate (moment x now)) := by
  have hkeeps : Keeps b log (c.enter .active) := ⟨h.brief, h.began, h.sent⟩
  unfold activate
  dsimp only
  split
  · rename_i hplan
    exact stands_awaitEnd hkeeps admitted (.idle (h.brief ▸ hplan) quiet)
  · rename_i plan hplan
    exact stands_proceed hkeeps admitted (.of_quiet (h.brief ▸ hplan) quiet) (.inl quiet)

theorem stands_awaitBegin (h : Keeps b log c) (admitted : Admitted log)
    (quiet : ∀ e ∈ log, ¬ e.isSend) : Stands b x log now (c.awaitBegin (moment x now)) := by
  unfold awaitBegin moment Retry.start Retry.next
  dsimp only
  split
  · exact ⟨⟨h.brief, h.began, h.sent⟩, Ended.cancelled ‹_›⟩
  · exact ⟨⟨h.brief, h.began, h.sent⟩, And.intro admitted quiet⟩

theorem stands_join (h : Keeps b [] c) : Stands b x [] now (c.join (moment x now)) := by
  unfold join moment Retry.start Retry.next
  dsimp only
  split
  · exact ⟨⟨h.brief, h.began, h.sent⟩, Ended.cancelled ‹_›⟩
  · exact ⟨⟨h.brief, h.began, h.sent⟩, (List.forall_mem_nil _ : ∀ e ∈ [], _)⟩

theorem stands_probe (h : Keeps b [] c) (limit : Nat) (rest : List Endpoint) :
    Stands b x [] now (c.probe (moment x now) limit rest) := by
  cases rest with
  | nil => exact stands_join h
  | cons endpoint rest =>
    exact ⟨⟨h.brief, h.began, h.sent⟩, (rfl : ([] : List Exchange) = [])⟩

theorem stands_start : Stands b x [] now ((ofBrief b).advance (moment x now) .started) := by
  have hkeeps : Keeps b [] { ofBrief b with startedAt := now } := ⟨rfl, rfl, rfl⟩
  have hprobing : Keeps b [] ({ ofBrief b with startedAt := now }.enter .probing) := ⟨rfl, rfl, rfl⟩
  rw [advance_fresh rfl]
  unfold start
  dsimp only
  split
  · exact stands_join hkeeps
  · exact stands_probe hprobing _ _

/-! ## Loops -/

theorem Stands.behind_of_phase {p : Phase} (h : Stands b x log now c) (hphase : c.phase = p) :
    Behind b x log now { c with phase := p } := by
  subst hphase
  exact h.behind

section Loops

variable {loop : Retry} {t : Nat} {rested : Bool}

theorem stands_admitted (h : Stands b x log now c) (hphase : c.phase = .joining loop .answer) :
    Stands b x (log ++ [⟨.join, now, .joined (.ok ()), t⟩]) t
      (c.advance (moment x t) (.joined (.ok ()))) := by
  have hlog : ∀ e ∈ log, e.isJoin ∧ e.isFailure := h.behind_of_phase hphase
  have hquiet : ∀ e ∈ log, ¬ e.isSend := fun e he => Exchange.not_isSend_of_isJoin (hlog e he).1
  have hkeeps := h.toKeeps.snoc (q := ⟨.join, now, .joined (.ok ()), t⟩) nofun rfl
  rw [advance_joining_answer hphase]
  have hkeeps' : Keeps b _ { c with joinAttempts := loop.attempts } :=
    ⟨hkeeps.brief, hkeeps.began, hkeeps.sent⟩
  apply stands_awaitBegin hkeeps'
  · exact ⟨log, _, [], rfl, fun e he => (hlog e he).1, rfl, rfl, List.forall_mem_nil _⟩
  · exact forall_mem_append_singleton hquiet nofun

theorem stands_refused {e : JoinError} (h : Stands b x log now c)
    (hphase : c.phase = .joining loop .answer) :
    Stands b x (log ++ [⟨.join, now, .joined (.error e), t⟩]) t
      (c.advance (moment x t) (.joined (.error e))) := by
  have hlog : ∀ e ∈ log, e.isJoin ∧ e.isFailure := h.behind_of_phase hphase
  have hlog' := forall_mem_append_singleton (q := ⟨.join, now, .joined (.error e), t⟩) hlog
    ⟨rfl, rfl⟩
  have hkeeps := h.toKeeps.snoc (q := ⟨.join, now, .joined (.error e), t⟩) nofun rfl
  rw [advance_joining_answer hphase]
  cases hretry : e.isRetriable with
  | false =>
    simp only [joinAnswer, hretry, Retry.answered, Bool.false_eq_true, if_false]
    exact ⟨⟨hkeeps.brief, hkeeps.began, hkeeps.sent⟩, Ended.refused _ nofun hlog'⟩
  | true =>
    cases hlate : loop.isLate t with
    | true =>
      simp only [joinAnswer, hretry, Retry.answered, moment, hlate, if_true]
      exact ⟨⟨hkeeps.brief, hkeeps.began, hkeeps.sent⟩, Ended.refused _ nofun hlog'⟩
    | false =>
      simp only [joinAnswer, hretry, Retry.answered, moment, hlate, Bool.false_eq_true, if_true,
        if_false]
      exact ⟨⟨hkeeps.brief, hkeeps.began, hkeeps.sent⟩, hlog'⟩

theorem woken_nap (x : Cancellation) (now : Nat) (loop : Retry) (span : Nat) {ε α : Type} :
    x.reached (x.nap now span).wokenAt ∧
        (loop.woken (x.nap now span).rested (x.reached (x.nap now span).wokenAt) : Retry.Move ε α) =
          .stop .cancelled ∨
      x.reached (x.nap now span).wokenAt = false ∧
        (loop.woken (x.nap now span).rested (x.reached (x.nap now span).wokenAt) : Retry.Move ε α) =
          .wait { loop with attempts := loop.attempts + 1 } .answer := by
  cases hrested : (x.nap now span).rested with
  | false => exact .inl ⟨Cancellation.reached_wokenAt_nap hrested, rfl⟩
  | true =>
    cases hreached : x.reached (x.nap now span).wokenAt with
    | false => exact .inr ⟨rfl, rfl⟩
    | true => exact .inl ⟨rfl, rfl⟩

theorem stands_joinPause (h : Stands b x log now c) (hphase : c.phase = .joining loop .pause)
    (span : Nat) :
    Stands b x log (x.nap now span).wokenAt
      (c.advance (moment x (x.nap now span).wokenAt) (.woken (x.nap now span).rested)) := by
  have hlog : ∀ e ∈ log, e.isJoin ∧ e.isFailure := h.behind_of_phase hphase
  rw [advance_joining_pause hphase]
  unfold moment
  rcases woken_nap x now loop span with ⟨hreached, hwoken⟩ | ⟨-, hwoken⟩
  · rw [hwoken]
    exact ⟨⟨h.brief, h.began, h.sent⟩, Ended.cancelled hreached⟩
  · rw [hwoken]
    exact ⟨⟨h.brief, h.began, h.sent⟩, hlog⟩

theorem stands_beginPause (h : Stands b x log now c)
    (hphase : c.phase = .awaitingBegin loop .pause) (span : Nat) :
    Stands b x log (x.nap now span).wokenAt
      (c.advance (moment x (x.nap now span).wokenAt) (.woken (x.nap now span).rested)) := by
  obtain ⟨admitted, quiet⟩ : Admitted log ∧ ∀ e ∈ log, ¬ e.isSend := h.behind_of_phase hphase
  rw [advance_awaitingBegin_pause hphase]
  unfold moment
  rcases woken_nap x now loop span with ⟨hreached, hwoken⟩ | ⟨-, hwoken⟩
  · rw [hwoken]
    exact ⟨⟨h.brief, h.began, h.sent⟩, Ended.cancelled hreached⟩
  · rw [hwoken]
    exact ⟨⟨h.brief, h.began, h.sent⟩, And.intro admitted quiet⟩

theorem stands_endPause (h : Stands b x log now c) (hphase : c.phase = .awaitingEnd loop .pause)
    (span : Nat) :
    Stands b x log (x.nap now span).wokenAt
      (c.advance (moment x (x.nap now span).wokenAt) (.woken (x.nap now span).rested)) := by
  obtain ⟨admitted, finished, policy⟩ :
    Admitted log ∧ Finished b log ∧ loop.policy = b.settings.ending := h.behind_of_phase hphase
  rw [advance_awaitingEnd_pause hphase]
  unfold moment
  rcases woken_nap x now loop span with ⟨hreached, hwoken⟩ | ⟨-, hwoken⟩
  · rw [hwoken]
    exact ⟨⟨h.brief, h.began, h.sent⟩, Ended.cancelled hreached⟩
  · rw [hwoken]
    exact ⟨⟨h.brief, h.began, h.sent⟩, And.intro admitted ⟨finished, policy⟩⟩

theorem deadline_of_isLate (h : loop.isLate t) : loop.policy.deadline.isSome := by
  unfold Retry.isLate at h
  split at h
  · cases h
  · rename_i hdeadline
    rw [hdeadline]
    rfl

theorem stands_abort {q : Exchange} {failure : MissionError} (h : Keeps b (log ++ [q]) c)
    (hq : q.isFailure) (hjoin : ¬ q.isJoin) :
    Stands b x (log ++ [q]) t (c.abort (moment x t) failure) :=
  ⟨⟨h.brief, h.began, h.sent⟩, Ended.broken q List.getLast?_concat hq hjoin⟩

theorem stands_beginFailed {reason : String} (h : Stands b x log now c)
    (hphase : c.phase = .awaitingBegin loop .answer) :
    Stands b x (log ++ [⟨.status, now, .status (.error reason), t⟩]) t
      (c.advance (moment x t) (.status (.error reason))) := by
  have hkeeps := h.toKeeps.snoc (q := ⟨.status, now, .status (.error reason), t⟩) nofun rfl
  rw [advance_awaitingBegin_answer hphase]
  exact stands_abort hkeeps rfl nofun

theorem stands_polled {s : Status} (h : Stands b x log now c)
    (hphase : c.phase = .awaitingBegin loop .answer) :
    Stands b x (log ++ [⟨.status, now, .status (.ok s), t⟩]) t
      (c.advance (moment x t) (.status (.ok s))) := by
  obtain ⟨admitted, quiet⟩ : Admitted log ∧ ∀ e ∈ log, ¬ e.isSend := h.behind_of_phase hphase
  have hadmitted := admitted.snoc (q := ⟨.status, now, .status (.ok s), t⟩) nofun nofun
  have hquiet := forall_mem_append_singleton (q := ⟨.status, now, .status (.ok s), t⟩) quiet nofun
  have hkeeps := h.toKeeps.notice s now t
  rw [advance_awaitingBegin_answer hphase]
  cases hbegun : s.hasBegun with
  | true =>
    have hnotice : c.notice s = { c with began := true } := by
      rw [Coordinator.notice, hbegun, Bool.or_true]
    simp only [Except.map, hbegun, Retry.pollAnswer, Retry.answered, beginMove, Retry.Outcome.poll]
    exact stands_activate (hnotice ▸ hkeeps) hadmitted hquiet
  | false =>
    have hnotice : c.notice s = c := by rw [Coordinator.notice, hbegun, Bool.or_false]
    rw [hnotice] at hkeeps
    cases hlate : loop.isLate t with
    | true =>
      simp only [Except.map, hbegun, Retry.pollAnswer, Retry.answered, moment, hlate, if_true,
        beginMove, Retry.Outcome.poll]
      exact stands_activate hkeeps hadmitted hquiet
    | false =>
      simp only [Except.map, hbegun, Retry.pollAnswer, Retry.answered, moment, hlate,
        Bool.false_eq_true, if_false, beginMove]
      exact ⟨⟨hkeeps.brief, hkeeps.began, hkeeps.sent⟩, And.intro hadmitted hquiet⟩

theorem stands_endFailed {reason : String} (h : Stands b x log now c)
    (hphase : c.phase = .awaitingEnd loop .answer) :
    Stands b x (log ++ [⟨.status, now, .status (.error reason), t⟩]) t
      (c.advance (moment x t) (.status (.error reason))) := by
  have hkeeps := h.toKeeps.snoc (q := ⟨.status, now, .status (.error reason), t⟩) nofun rfl
  rw [advance_awaitingEnd_failed hphase]
  exact stands_abort hkeeps rfl nofun

theorem stands_awaited {s : Status} (h : Stands b x log now c)
    (hphase : c.phase = .awaitingEnd loop .answer) :
    Stands b x (log ++ [⟨.status, now, .status (.ok s), t⟩]) t
      (c.advance (moment x t) (.status (.ok s))) := by
  obtain ⟨admitted, finished, policy⟩ :
    Admitted log ∧ Finished b log ∧ loop.policy = b.settings.ending := h.behind_of_phase hphase
  have hadmitted := admitted.snoc (q := ⟨.status, now, .status (.ok s), t⟩) nofun nofun
  have hfinished := finished.snoc (q := ⟨.status, now, .status (.ok s), t⟩) nofun
  have hkeeps := h.toKeeps.notice s now t
  rw [advance_awaitingEnd_answer hphase]
  cases hrun : s.isRunning with
  | false =>
    have hstopped : Exchange.saysStopped ⟨.status, now, .status (.ok s), t⟩ := by
      simp [Exchange.saysStopped, Exchange.status?, hrun]
    simp only [Retry.pollAnswer, Retry.answered, endMove, Retry.Outcome.poll, Bool.not_false]
    split
    · rename_i hbegan
      exact ⟨⟨hkeeps.brief, hkeeps.began, hkeeps.sent⟩,
        Ended.completed _ List.getLast?_concat hstopped hadmitted hfinished hbegan⟩
    · exact ⟨⟨hkeeps.brief, hkeeps.began, hkeeps.sent⟩,
        Ended.stopped _ List.getLast?_concat hstopped hadmitted fun _ => rfl⟩
  | true =>
    cases hlate : loop.isLate t with
    | true =>
      have hdeadline : b.settings.ending.deadline.isSome := policy ▸ deadline_of_isLate hlate
      simp only [Retry.pollAnswer, Retry.answered, endMove, Retry.Outcome.poll, Bool.not_true,
        moment, hlate, if_true]
      exact ⟨⟨hkeeps.brief, hkeeps.began, hkeeps.sent⟩, Ended.outlived hdeadline⟩
    | false =>
      simp only [Retry.pollAnswer, Retry.answered, endMove, Bool.not_true, moment, hlate,
        Bool.false_eq_true, if_false]
      exact ⟨⟨hkeeps.brief, hkeeps.began, hkeeps.sent⟩,
        And.intro hadmitted ⟨hfinished, policy⟩⟩

end Loops

/-! ## The plan -/

section Plan

variable {a : Action} {rest : List Action} {t : Nat}

theorem stands_sent (h : Stands b x log now c) (hphase : c.phase = .sending a rest) :
    Stands b x (log ++ [⟨.send a.command.token, now, .sent (.ok ()), t⟩]) t
      (c.advance (moment x t) (.sent (.ok ()))) := by
  obtain ⟨admitted, sent, -⟩ : Admitted log ∧ Sent b log (a :: rest) ∧ _ := h.behind_of_phase hphase
  have hadmitted := admitted.snoc (q := ⟨.send a.command.token, now, .sent (.ok ()), t⟩) nofun nofun
  have hsent := sent.snoc_command now t
  have hkeeps := h.toKeeps.snoc_command a.command.token now t
  have hpaused : Paused (log ++ [⟨.send a.command.token, now, .sent (.ok ()), t⟩]) t :=
    ⟨log, _, [], rfl, rfl, List.forall_mem_nil _, Nat.le_refl t⟩
  rw [advance_sending hphase]
  unfold commandSent
  split
  · exact ⟨⟨hkeeps.brief, hkeeps.began, hkeeps.sent⟩, And.intro hadmitted ⟨hsent, hpaused⟩⟩
  · exact ⟨⟨hkeeps.brief, hkeeps.began, hkeeps.sent⟩, And.intro hadmitted ⟨hsent, hpaused⟩⟩

theorem stands_sendFailed {token reason : String} {failure : MissionError}
    (h : Stands b x log now c) :
    Stands b x (log ++ [⟨.send token, now, .sent (.error reason), t⟩]) t
      (c.abort (moment x t) failure) :=
  stands_abort h.toKeeps.snoc_refused rfl nofun

theorem stands_observed {o : Option Observation} (h : Stands b x log now c)
    (hphase : c.phase = .observing a rest) (hle : now ≤ t) :
    Stands b x (log ++ [⟨.observe, now, .observed o, t⟩]) t
      (c.advance (moment x t) (.observed o)) := by
  obtain ⟨admitted, sent, paused⟩ : Admitted log ∧ Sent b log rest ∧ Paused log now :=
    h.behind_of_phase hphase
  have hadmitted := admitted.snoc (q := ⟨.observe, now, .observed o, t⟩) nofun nofun
  have hsent := sent.snoc (q := ⟨.observe, now, .observed o, t⟩) nofun nofun
  have hpaused := (paused.mono hle).snoc (q := ⟨.observe, now, .observed o, t⟩) rfl
  have hkeeps := h.toKeeps.snoc (q := ⟨.observe, now, .observed o, t⟩) nofun rfl
  rw [advance_observing hphase]
  exact ⟨⟨hkeeps.brief, hkeeps.began, hkeeps.sent⟩, And.intro hadmitted ⟨hsent, hpaused⟩⟩

theorem stands_published {snapshot : Snapshot} (h : Stands b x log now c)
    (hphase : c.phase = .publishing snapshot rest) :
    Stands b x log now (c.advance (moment x now) .published) := by
  have hbehind : Admitted log ∧ Sent b log rest ∧ Paused log now := h.behind_of_phase hphase
  rw [advance_publishing hphase]
  exact ⟨⟨h.brief, h.began, h.sent⟩, hbehind⟩

theorem stands_paced (h : Stands b x log now c) (hphase : c.phase = .pacing rest) :
    Stands b x log (x.nap now b.settings.pacing).wokenAt
      (c.advance (moment x (x.nap now b.settings.pacing).wokenAt)
        (.woken (x.nap now b.settings.pacing).rested)) := by
  obtain ⟨admitted, sent, paused⟩ : Admitted log ∧ Sent b log rest ∧ Paused log now :=
    h.behind_of_phase hphase
  cases hrested : (x.nap now b.settings.pacing).rested with
  | false =>
    rw [advance_pacing_cut hphase]
    exact ⟨⟨h.brief, h.began, h.sent⟩, Ended.cancelled (Cancellation.reached_wokenAt_nap hrested)⟩
  | true =>
    rw [advance_pacing hphase]
    refine ⟨⟨h.brief, h.began, h.sent⟩, And.intro admitted ⟨sent, now, paused, ?_⟩⟩
    exact Nat.le_of_eq (Cancellation.wokenAt_nap_of_rested hrested).symm

theorem stands_checkFailed {reason : String} (h : Stands b x log now c)
    (hphase : c.phase = .checking rest) :
    Stands b x (log ++ [⟨.status, now, .status (.error reason), t⟩]) t
      (c.advance (moment x t) (.status (.error reason))) := by
  have hkeeps := h.toKeeps.snoc (q := ⟨.status, now, .status (.error reason), t⟩) nofun rfl
  rw [advance_checking_failed hphase]
  exact stands_abort hkeeps rfl nofun

theorem stands_checked {s : Status} (h : Stands b x log now c) (hphase : c.phase = .checking rest)
    (hle : now ≤ t) :
    Stands b x (log ++ [⟨.status, now, .status (.ok s), t⟩]) t
      (c.advance (moment x t) (.status (.ok s))) := by
  obtain ⟨admitted, sent, t₀, ⟨before, e, seen, hlog, he, hseen, hanswered⟩, hpaced⟩ :
    Admitted log ∧ Sent b log rest ∧ ∃ t₀, Paused log t₀ ∧ t₀ + b.settings.pacing ≤ now :=
    h.behind_of_phase hphase
  have hadmitted := admitted.snoc (q := ⟨.status, now, .status (.ok s), t⟩) nofun nofun
  have hkeeps := h.toKeeps.notice s now t
  rw [advance_checking hphase]
  unfold checked
  dsimp only
  split
  · rename_i hrun
    have hsaid : Exchange.saysRunning ⟨.status, now, .status (.ok s), t⟩ := by
      simp [Exchange.saysRunning, Exchange.status?, hrun]
    have hsent := sent.snoc (q := ⟨.status, now, .status (.ok s), t⟩) nofun fun _ => hsaid
    refine stands_proceed hkeeps hadmitted hsent (.inr ?_)
    exact ⟨before, e, seen, _, by simp [hlog], he, hseen, rfl, hsaid,
      Nat.le_trans (Nat.add_le_add_right hanswered _) hpaced, hle, rfl⟩
  · rename_i hstop
    have hstopped : Exchange.saysStopped ⟨.status, now, .status (.ok s), t⟩ := by
      simpa [Exchange.saysStopped, Exchange.status?] using hstop
    split
    · rename_i hlast
      obtain ⟨hbegan, rfl⟩ : (c.notice s).began ∧ rest = [] := by simpa using hlast
      obtain ⟨done, hplan, htokens⟩ := sent.plan
      rw [List.append_nil] at hplan
      have hquiet : ¬ Exchange.isSend ⟨.status, now, .status (.ok s), t⟩ := nofun
      refine stands_awaitEnd hkeeps hadmitted (.delivered done hplan ?_ ?_ ?_)
      · rw [sends_append_of_not_isSend hquiet]
        exact sent.accepted
      · rw [tokens_append_of_not_isSend hquiet, htokens]
      · rw [hkeeps.began, List.any_eq_true] at hbegan
        subst hlog
        exact ⟨before, e, seen, _, [], by simp, he, hseen, rfl, hstopped,
          List.forall_mem_nil _, by simpa using hbegan⟩
    · split
      · rename_i hbegan
        refine ⟨⟨hkeeps.brief, hkeeps.began, hkeeps.sent⟩,
          Ended.stopped _ List.getLast?_concat hstopped hadmitted fun hnot => ?_⟩
        exact absurd hbegan (Bool.eq_false_iff.mp hnot)
      · exact ⟨⟨hkeeps.brief, hkeeps.began, hkeeps.sent⟩,
          Ended.stopped _ List.getLast?_concat hstopped hadmitted fun _ => rfl⟩

theorem stands_quit (h : Stands b x log now c) (hphase : c.phase = .quitting) :
    Stands b x (log ++ [⟨.send Command.quitToken, now, .sent (.ok ()), t⟩]) t
      (c.advance (moment x t) (.sent (.ok ()))) := by
  obtain ⟨admitted, sent, -⟩ : Admitted log ∧ Sent b log [] ∧ _ := h.behind_of_phase hphase
  have hadmitted := admitted.snoc (q := ⟨.send Command.quitToken, now, .sent (.ok ()), t⟩)
    nofun nofun
  have hkeeps := h.toKeeps.snoc_command Command.quitToken now t
  obtain ⟨done, hplan, htokens⟩ := sent.plan
  rw [List.append_nil] at hplan
  rw [advance_quitting hphase]
  refine stands_awaitEnd hkeeps hadmitted (.quit done hplan ?_ ?_)
  · rw [sends_append]
    exact forall_mem_append_singleton sent.accepted rfl
  · rw [tokens_append, htokens]
    rfl

end Plan

/-! ## Every history -/

theorem Stands.told {e : Event} {t : Nat} {calls : List Exchange} (h : Stands b x log now c)
    (told : Told b x now c.phase e t calls) :
    Stands b x (log ++ calls) t (c.advance (moment x t) e) := by
  generalize hphase : c.phase = p at told
  cases told with
  | probed =>
    have hlog : log = [] := h.behind_of_phase hphase
    subst hlog
    rw [advance_probing hphase]
    exact stands_probe h.toKeeps _ _
  | joined _ loop a =>
    cases a with
    | ok => exact stands_admitted h hphase
    | error e => exact stands_refused h hphase
  | joinPause loop => exact (List.append_nil log).symm ▸ stands_joinPause h hphase _
  | polled _ loop a =>
    cases a with
    | ok s => exact stands_polled h hphase
    | error reason => exact stands_beginFailed h hphase
  | beginPause loop => exact (List.append_nil log).symm ▸ stands_beginPause h hphase _
  | sent _ a rest answer =>
    cases answer with
    | ok => exact stands_sent h hphase
    | error reason => exact advance_sending_failed hphase ▸ stands_sendFailed h
  | observed hle a rest o => exact stands_observed h hphase hle
  | published snapshot rest => exact (List.append_nil log).symm ▸ stands_published h hphase
  | paced rest => exact (List.append_nil log).symm ▸ stands_paced h hphase
  | checked hle rest a =>
    cases a with
    | ok s => exact stands_checked h hphase hle
    | error reason => exact stands_checkFailed h hphase
  | quit _ answer =>
    cases answer with
    | ok => exact stands_quit h hphase
    | error reason => exact advance_quitting_failed hphase ▸ stands_sendFailed h
  | awaited _ loop a =>
    cases a with
    | ok s => exact stands_awaited h hphase
    | error reason => exact stands_endFailed h hphase
  | endPause loop => exact (List.append_nil log).symm ▸ stands_endPause h hphase _

theorem History.stands (h : History b x log c now) : Stands b x log now c := by
  induction h with
  | start now => exact stands_start
  | goOn _ asked answered stands => exact stands.told (answered.told stands.brief asked)

/-- A report tells how the history ended. -/
theorem History.ended {report : Report} (h : History b x log c now)
    (hreport : c.report? = some report) : Ended b x log now c report.outcome := by
  unfold report? at hreport
  split at hreport
  · rename_i o elapsed hphase
    obtain rfl := Option.some.inj hreport
    have hended : Ended b x log now { c with phase := .terminated o elapsed } o :=
      h.stands.behind_of_phase hphase
    cases hended with
    | cancelled h => exact .cancelled h
    | refused o ho h => exact .refused o ho h
    | broken e last h inside => exact .broken e last h inside
    | outlived h => exact .outlived h
    | stopped e last h admitted failure => exact .stopped e last h admitted failure
    | completed e last h admitted finished began => exact .completed e last h admitted finished began
  · cases hreport

theorem History.joins_of_request (h : History b x log c now) (asked : c.request = some .join) :
    ∀ e ∈ log, e.isJoin ∧ e.isFailure := by
  unfold Coordinator.request at asked
  split at asked <;> cases asked
  rename_i hphase
  exact h.stands.behind_of_phase hphase

theorem History.admitted_of_status (h : History b x log c now) (asked : c.request = some .status) :
    Admitted log := by
  unfold Coordinator.request at asked
  split at asked <;> cases asked <;> rename_i hphase
  · have hbehind : Admitted log ∧ ∀ e ∈ log, ¬ e.isSend := h.stands.behind_of_phase hphase
    exact hbehind.1
  · have hbehind : Admitted log ∧ Sent b log _ ∧ _ := h.stands.behind_of_phase hphase
    exact hbehind.1
  · have hbehind : Admitted log ∧ Finished b log ∧ _ := h.stands.behind_of_phase hphase
    exact hbehind.1

theorem History.admitted_of_send {token : String} (h : History b x log c now)
    (asked : c.request = some (.send token)) : Admitted log := by
  rcases request_send asked with ⟨a, rest, hphase, -⟩ | ⟨hphase, -⟩
  · have hbehind : Admitted log ∧ Sent b log (a :: rest) ∧ _ := h.stands.behind_of_phase hphase
    exact hbehind.1
  · have hbehind : Admitted log ∧ Sent b log [] ∧ _ := h.stands.behind_of_phase hphase
    exact hbehind.1

theorem History.not_send_of_idle (h : History b x log c now) (hplan : b.plan = none)
    (token : String) : c.request ≠ some (.send token) := by
  intro asked
  have hsent : ∃ rest, Sent b log rest := by
    rcases request_send asked with ⟨a, rest, hphase, -⟩ | ⟨hphase, -⟩
    · obtain ⟨-, sent, -⟩ : Admitted log ∧ Sent b log (a :: rest) ∧ _ :=
        h.stands.behind_of_phase hphase
      exact ⟨_, sent⟩
    · obtain ⟨-, sent, -⟩ : Admitted log ∧ Sent b log [] ∧ _ := h.stands.behind_of_phase hphase
      exact ⟨_, sent⟩
  obtain ⟨rest, sent⟩ := hsent
  obtain ⟨done, hdone, -⟩ := sent.plan
  rw [hplan] at hdone
  cases hdone

end Labyrinth.Coordinator

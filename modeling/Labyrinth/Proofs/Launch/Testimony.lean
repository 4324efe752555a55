import Labyrinth.Proofs.Launch.Chronicle

/-!
# Testimonies

What a role was told about its session is true of the session from then on.
-/

namespace Labyrinth

open Coordinator Engine Timeline Room

namespace Venture

/-- The session bears out what its role was told. -/
structure Vouched (b : Brief) (log : List Exchange) (session? : Option Session) : Prop where
  admitted : ∀ q ∈ log, q.isAdmission → (World.agent? session? b.role).isSome
  begun : ∀ q ∈ log, q.saysBegun ∨ q.saysRunning → (session?.bind (·.begunAt)).isSome
  quit : b.plan ≠ some [] → ∀ q ∈ log, q.token? = some Command.quitToken → q.isAccepted →
    session?.any (·.ended)
  stopped : ∀ before q after, log = before ++ q :: after → q.saysStopped →
    (∃ e ∈ before ++ [q], e.saysBegun) → session?.any (·.ended)

variable {V : Venture} {r : Role} {log log' : List Exchange} {session? session?' : Option Session}
  {c : Coordinator} {time : Nat} {state : State World.Pending} {q : Exchange} {request : Request}
  {event : Event} {b : Brief}

theorem vouched_nil : Vouched b [] session? where
  admitted := List.forall_mem_nil _
  begun := List.forall_mem_nil _
  quit _ := List.forall_mem_nil _
  stopped before q after hlog := by simp at hlog

theorem Vouched.outlast (h : Vouched b log session?) (hout : Outlasts session? session?') :
    Vouched b log session?' where
  admitted q hq hadmission := hout.inside b.role (h.admitted q hq hadmission)
  begun q hq hsaid := by
    obtain ⟨t, ht⟩ := Option.isSome_iff_exists.mp (h.begun q hq hsaid)
    exact Option.isSome_of_eq_some (hout.begunAt t ht)
  quit hplan q hq htoken haccepted := hout.ended (h.quit hplan q hq htoken haccepted)
  stopped before q after hlog hstopped hbegun :=
    hout.ended (h.stopped before q after hlog hstopped hbegun)

theorem Vouched.snoc (h : Vouched b log session?)
    (admitted : q.isAdmission → (World.agent? session? b.role).isSome)
    (begun : q.saysBegun ∨ q.saysRunning → (session?.bind (·.begunAt)).isSome)
    (quit : b.plan ≠ some [] → q.token? = some Command.quitToken → q.isAccepted →
      session?.any (·.ended))
    (stopped : q.saysStopped → (session?.bind (·.begunAt)).isSome → session?.any (·.ended)) :
    Vouched b (log ++ [q]) session? where
  admitted := forall_mem_append_singleton h.admitted admitted
  begun := forall_mem_append_singleton h.begun begun
  quit hplan := forall_mem_append_singleton (h.quit hplan) (quit hplan)
  stopped before e after hlog hstopped hbegun := by
    rcases append_eq_append_cons_iff.mp hlog with ⟨-, rfl, rfl⟩ | ⟨after', -, hlog'⟩
    · obtain ⟨e, he, hsaid⟩ := hbegun
      exact stopped hstopped (forall_mem_append_singleton h.begun begun e he (.inl hsaid))
    · exact h.stopped before e after' hlog' hstopped hbegun

theorem Vouched.heard (h : Vouched b log session?) (hstatus : q.status? = none)
    (admitted : q.isAdmission → (World.agent? session? b.role).isSome)
    (quit : b.plan ≠ some [] → q.token? = some Command.quitToken → q.isAccepted →
      session?.any (·.ended)) : Vouched b (log ++ [q]) session? :=
  h.snoc admitted (by simp [Exchange.saysBegun, Exchange.saysRunning, hstatus]) quit
    (by simp [Exchange.saysStopped, hstatus])

theorem Vouched.unmoved (h : Vouched b log session?) (hstatus : q.status? = none)
    (hadmission : ¬ q.isAdmission) (haccepted : ¬ q.isAccepted) :
    Vouched b (log ++ [q]) session? :=
  h.heard hstatus (absurd · hadmission) fun _ _ => (absurd · haccepted)

theorem quitting_of_request (h : c.request = some (.send Command.quitToken)) :
    c.phase = .quitting := by
  rcases request_send h with ⟨a, -, -, htoken⟩ | ⟨hphase, -⟩
  · exact absurd htoken.symm (token_ne_quitToken a.command)
  · exact hphase

section Served

variable (history : History b V.cancellation log c time)

include history

theorem begun_of_quitting (h : Vouched b log session?) (hplan : b.plan ≠ some [])
    (hphase : c.phase = .quitting) : (session?.bind (·.begunAt)).isSome := by
  obtain ⟨-, sent, clear⟩ : Admitted log ∧ Sent b log [] ∧ _ :=
    history.stands.behind_of_phase hphase
  rcases clear with quiet | ⟨before, e, seen, st, hlog, -, -, -, hsaid, -⟩
  · obtain ⟨done, hdone, htokens⟩ := sent.plan
    rw [tokens_eq_nil_iff.mpr quiet, eq_comm, List.map_eq_nil_iff] at htokens
    rw [htokens] at hdone
    exact absurd hdone hplan
  · exact h.begun st (by simp [hlog]) (.inr hsaid)

theorem Vouched.served (h : Vouched b log session?) (asked : c.request = some request)
    (serves : Serves V.engine c.brief time request session? event session?') :
    Vouched b (log ++ record request time event time) session?' := by
  have hrole : c.brief.role = b.role := congrArg Brief.role history.stands.brief
  have hout := h.outlast serves.outlasts
  cases serves with
  | publish =>
    rw [record_publish, List.append_nil]
    exact h
  | observe => exact hout.unmoved rfl Bool.false_ne_true Bool.false_ne_true
  | refused => exact hout.unmoved rfl Bool.false_ne_true Bool.false_ne_true
  | admitted s =>
    refine hout.heard rfl (fun _ => ?_) fun _ _ => (absurd · Bool.false_ne_true)
    exact Session.isSome_agent?_enrol.mpr (.inl hrole.symm)
  | statusFailed => exact hout.unmoved rfl Bool.false_ne_true Bool.false_ne_true
  | status s =>
    refine hout.snoc (absurd · Bool.false_ne_true) (fun hsaid => ?_)
      (fun _ _ => (absurd · Bool.false_ne_true)) fun hstopped hbegun => ?_
    · rcases hsaid with hbegun | hrun
      · exact hbegun
      · exact (Session.isRunning_checkTime.mp hrun).1
    · refine Session.ended_of_not_isRunning (fun hrun => ?_) hbegun
      simp [Exchange.saysStopped, Exchange.status?, hrun] at hstopped
  | sendFailed => exact hout.unmoved rfl Bool.false_ne_true Bool.false_ne_true
  | ignored token s inside stopped =>
    refine hout.heard rfl (absurd · Bool.false_ne_true) fun hplan htoken _ => ?_
    obtain rfl : token = Command.quitToken := Option.some.inj htoken
    exact Session.ended_of_not_isRunning stopped
      (begun_of_quitting history h hplan (quitting_of_request asked))
  | obeyed token s =>
    refine hout.heard rfl (absurd · Bool.false_ne_true) fun hplan htoken _ => ?_
    obtain rfl : token = Command.quitToken := Option.some.inj htoken
    rw [obey_quitToken]
    rfl

end Served

theorem Asks.vouched (asks : V.Asks c time log session? state log' session?')
    (history : History b V.cancellation log c time) (h : Vouched b log session?) :
    Vouched b log' session?' := by
  cases asks with
  | ended | naps | probes => exact h
  | served asked serves => exact h.served history asked serves
  | creates => exact h.outlast (outlasts_none _)

theorem Hears.vouched {due : Due World.Pending} {now : Nat} {t : Track World.Pending} {order : Nat}
    (hears : V.Hears time due log session? event log' session?')
    (lived : V.Lived r session? now log t) (hstate : t.state = .waiting time order due)
    (h : Vouched (V.brief r) log session?) : Vouched (V.brief r) log' session?' := by
  have hout := h.outlast hears.outlasts
  cases hears with
  | event => exact h
  | created =>
    refine hout.heard rfl (fun _ => ?_) fun _ _ => (absurd · Bool.false_ne_true)
    exact Session.isSome_agent?_enrol.mpr (.inl (lived.of_settle hstate).1)

theorem Chronicle.vouched {logs : Nat → List Exchange} {tl : Room} (h : V.Chronicle logs tl)
    (r : Role) : Vouched (V.brief r) (logs r.number) tl.world := by
  induction h with
  | start => exact vouched_nil
  | goOn h _ stride ih =>
    obtain ⟨track, waiting, first, hears, history, asks, changed⟩ := stride
    rename_i i _ _ _ _ _ _ _ _ _ _
    rw [changed.world]
    by_cases hi : i = r.number
    · subst hi
      rw [Function.update_self]
      exact asks.vouched history (hears.vouched (h.lived track) waiting ih)
    · rw [Function.update_of_ne (Ne.symm hi)]
      exact ih.outlast (hears.outlasts.trans asks.outlasts)

/-! ## The end of a session -/

/-- A role that has sent all it had to send has ended the session, or it has seen it end. -/
theorem Vouched.ended {later : List Exchange} (h : Vouched b (log ++ later) session?)
    (finished : Finished b log) {plan : List Action} (hplan : b.plan = some plan)
    (hne : plan ≠ []) : session?.any (·.ended) := by
  cases finished with
  | idle hnone =>
    rw [hnone] at hplan
    cases hplan
  | quit plan' _ accepted order =>
    have hquit : Command.quitToken ∈ tokens log := by
      rw [order]
      exact List.mem_append_right _ (List.mem_singleton_self _)
    obtain ⟨q, hq, htoken⟩ := List.mem_filterMap.mp hquit
    refine h.quit (by simpa [hplan] using hne) q (List.mem_append_left _ hq) htoken ?_
    refine accepted q (List.mem_filter.mpr ⟨hq, ?_⟩)
    rw [Exchange.isSend, htoken]
    rfl
  | delivered plan' _ _ _ last =>
    obtain ⟨before, e, seen, st, after, rfl, -, -, -, hstopped, -, hbegun⟩ := last
    refine h.stopped (before ++ e :: seen) st (after ++ later) (by simp) hstopped ?_
    simpa using hbegun

theorem Chronicle.history_of_awaitingEnd {logs : Nat → List Exchange} {tl : Room}
    (h : V.Chronicle logs tl) {i : Nat} {t : Track World.Pending} (ht : tl.tracks[i]? = some t)
    {loop : Retry} {wait : Retry.Wait} (hphase : t.coordinator.phase = .awaitingEnd loop wait) :
    ∃ log later since, logs i = log ++ later ∧
      History (V.brief ⟨i⟩) V.cancellation log t.coordinator since := by
  have hlived := h.lived ht
  generalize logs i = log at hlived ⊢
  cases hlived with
  | fresh => cases hphase
  | told history => exact ⟨_, _, _, rfl, history⟩
  | creating history => exact ⟨log, [], _, (List.append_nil log).symm, history⟩
  | ended history => exact ⟨log, [], _, (List.append_nil log).symm, history⟩

theorem Chronicle.ended_of_awaitingEnd {logs : Nat → List Exchange} {tl : Room}
    (h : V.Chronicle logs tl) {i : Nat} {t : Track World.Pending} (ht : tl.tracks[i]? = some t)
    {loop : Retry} {wait : Retry.Wait} (hphase : t.coordinator.phase = .awaitingEnd loop wait)
    {plan : List Action} (hplan : (V.brief ⟨i⟩).plan = some plan) (hne : plan ≠ []) :
    tl.world.any (·.ended) := by
  obtain ⟨log, later, since, hlog, history⟩ := h.history_of_awaitingEnd ht hphase
  obtain ⟨-, finished, -⟩ : Admitted log ∧ Finished (V.brief ⟨i⟩) log ∧ _ :=
    history.stands.behind_of_phase hphase
  have hvouched := h.vouched ⟨i⟩
  rw [hlog] at hvouched
  exact hvouched.ended finished hplan hne

end Venture

end Labyrinth

import Labyrinth.Proofs.Coordinator.Leads

/-!
# Patience

A role that nobody cancels waits for its session to begin until it is told so, or until its deadline
has passed.
-/

namespace Labyrinth.Coordinator

/-- The session had not begun. -/
def Exchange.saysUnbegun (e : Exchange) : Bool := e.status?.any fun s => !s.hasBegun

/-- The role was told that the session had begun, or later than its deadline that it had not. -/
def Outwaited (b : Brief) (log : List Exchange) : Prop :=
  (∃ e ∈ log, e.saysBegun) ∨
    ∃ q ∈ log, q.isAdmission ∧ ∃ e ∈ log, e.saysUnbegun ∧
      ∃ d, b.settings.beginning.deadline = some d ∧ q.answeredAt + d < e.answeredAt

/-- What a role has waited for, in each phase. -/
def Patient (b : Brief) (log : List Exchange) : Phase → Prop
  | .fresh | .probing _ _ _ | .joining _ _ => True
  | .awaitingBegin loop _ =>
    loop.policy = b.settings.beginning ∧ ∃ q ∈ log, q.isAdmission ∧ q.answeredAt = loop.startedAt
  | .terminated _ _ => Outwaited b log ∨ ∃ e, log.getLast? = some e ∧ e.isFailure
  | _ => Outwaited b log

/-- The role has started on its part in the session. -/
def Phase.isActive : Phase → Bool
  | .sending _ _ | .observing _ _ | .publishing _ _ | .pacing _ | .checking _ | .quitting
  | .awaitingEnd _ _ => true
  | _ => false

variable {b : Brief} {x : Cancellation} {now t : Nat} {log calls : List Exchange}
  {c : Coordinator} {p p' : Phase} {e : Event} {loop : Retry}

theorem Outwaited.append (h : Outwaited b log) (calls : List Exchange) :
    Outwaited b (log ++ calls) := by
  rcases h with ⟨e, he, hsaid⟩ | ⟨q, hq, hadmission, e, he, hsaid⟩
  · exact .inl ⟨e, List.mem_append_left _ he, hsaid⟩
  · exact .inr ⟨q, List.mem_append_left _ hq, hadmission, e, List.mem_append_left _ he, hsaid⟩

theorem Patient.outwaited (h : Patient b log p) (hp : p.isActive) : Outwaited b log := by
  cases p with
  | sending | observing | publishing | pacing | checking | quitting | awaitingEnd => exact h
  | _ => cases hp

theorem Outwaited.patient (h : Outwaited b log) (hp : p.isActive ∨ p.isOver) : Patient b log p := by
  cases p with
  | sending | observing | publishing | pacing | checking | quitting | awaitingEnd => exact h
  | terminated => exact .inl h
  | _ => simp [Phase.isActive, Phase.isOver] at hp

theorem isActive_onward (plan : List Action) : (Phase.onward plan).isActive := by
  cases plan <;> rfl

theorem Leads.isActive (h : Leads b x now p e p') (hp : p.isActive) : p'.isActive ∨ p'.isOver := by
  cases h with
  | finish => exact .inr rfl
  | proceed rest => exact .inl (isActive_onward rest)
  | join early => rcases early with ⟨rfl, -⟩ | ⟨limit, endpoint, reachable, rfl, -⟩ <;> cases hp
  | observe | pace | publish | published | check | delivered | quit | endPause | endPoll =>
    exact .inl rfl
  | _ => cases hp

/-! ## The wait -/

theorem patient_failed {q : Exchange} {o : Outcome} {elapsed : Nat} (h : q.isFailure) :
    Patient b (log ++ [q]) (.terminated o elapsed) :=
  .inr ⟨q, List.getLast?_concat, h⟩

theorem patient_joined (hphase : c.phase = .joining loop .answer) (a : Except JoinError Unit) :
    Patient c.brief (log ++ [⟨.join, now, .joined a, t⟩])
      (c.advance (moment none t) (.joined a)).phase := by
  rw [advance_joining_answer hphase]
  cases a with
  | ok => exact ⟨rfl, _, List.mem_append_right _ (List.mem_singleton_self _), rfl, rfl⟩
  | error error =>
    unfold joinAnswer
    dsimp only
    split
    · unfold Retry.answered
      dsimp only
      split
      · exact patient_failed rfl
      · trivial
    · exact patient_failed rfl

theorem active_activate (c : Coordinator) :
    (c.activate (moment none t)).phase.isActive := by
  unfold activate
  dsimp only
  split
  · rfl
  · exact phase_proceed _ _ ▸ isActive_onward _

theorem patient_polled (h : Patient c.brief log (.awaitingBegin loop .answer))
    (hphase : c.phase = .awaitingBegin loop .answer) (a : Except String Status) :
    Patient c.brief (log ++ [⟨.status, now, .status a, t⟩])
      (c.advance (moment none t) (.status a)).phase := by
  rw [advance_awaitingBegin_answer hphase]
  obtain ⟨hpolicy, q, hq, hadmission, hstart⟩ := h
  have hmem : (⟨.status, now, .status a, t⟩ : Exchange) ∈
      log ++ [(⟨.status, now, .status a, t⟩ : Exchange)] :=
    List.mem_append_right _ (List.mem_singleton_self _)
  cases a with
  | error => exact patient_failed rfl
  | ok s =>
    cases hbegun : s.hasBegun with
    | true =>
      simp only [Except.map, hbegun, Retry.pollAnswer, Retry.answered]
      exact Outwaited.patient (.inl ⟨_, hmem, hbegun⟩) (.inl (active_activate _))
    | false =>
      simp only [Except.map, hbegun, Retry.pollAnswer, Retry.answered]
      split
      · rename_i hlate
        refine Outwaited.patient (.inr ⟨q, List.mem_append_left _ hq, hadmission, _, hmem, ?_, ?_⟩)
          (.inl (active_activate _))
        · simp [Exchange.saysUnbegun, Exchange.status?, hbegun]
        · rw [hstart, ← hpolicy]
          unfold Retry.isLate at hlate
          split at hlate
          · cases hlate
          · rename_i d hd
            have hlt : d < t - loop.startedAt := of_decide_eq_true hlate
            refine ⟨d, hd, ?_⟩
            change loop.startedAt + d < t
            omega
      · exact ⟨hpolicy, q, List.mem_append_left _ hq, hadmission, hstart⟩

theorem patient_probe (c : Coordinator) (limit : Nat) (rest : List Endpoint) :
    Patient b log (c.probe (moment none t) limit rest).phase := by
  cases rest <;> trivial

theorem Patient.told (h : Patient b log c.phase) (hbrief : c.brief = b)
    (told : Told b none now c.phase e t calls) :
    Patient b (log ++ calls) (c.advance (moment none t) e).phase := by
  have hleads := told.leads hbrief
  by_cases hactive : c.phase.isActive
  · exact ((h.outwaited hactive).append calls).patient (hleads.isActive hactive)
  subst hbrief
  generalize hphase : c.phase = p at h told hactive
  cases told with
  | probed =>
    rw [advance_probing hphase]
    exact patient_probe c _ _
  | joined _ loop a => exact patient_joined hphase a
  | joinPause loop =>
    rw [advance_joining_pause hphase]
    trivial
  | polled _ loop a => exact patient_polled h hphase a
  | beginPause loop =>
    rw [advance_awaitingBegin_pause hphase, List.append_nil]
    exact h
  | _ => exact absurd rfl hactive

theorem History.patient (h : History b none log c now) : Patient b log c.phase := by
  induction h with
  | start now =>
    rw [advance_fresh rfl]
    unfold Coordinator.start
    dsimp only
    split
    · trivial
    · exact patient_probe _ _ _
  | goOn h asked answered ih => exact ih.told h.stands.brief (answered.told h.stands.brief asked)

/-- A role does not end before it has waited, unless something fails. -/
theorem History.outwaited {report : Report} {q : Exchange} (h : History b none log c now)
    (hreport : c.report? = some report) (last : log.getLast? = some q) (hsound : ¬ q.isFailure) :
    Outwaited b log := by
  unfold report? at hreport
  split at hreport
  · rename_i o elapsed hphase
    have hpatient := h.patient
    rw [hphase] at hpatient
    rcases hpatient with houtwaited | ⟨q', last', hfailure⟩
    · exact houtwaited
    · obtain rfl := Option.some.inj (last.symm.trans last')
      exact absurd hfailure hsound
  · cases hreport

end Labyrinth.Coordinator

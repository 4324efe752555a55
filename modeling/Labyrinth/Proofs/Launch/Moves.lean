import Labyrinth.Proofs.Coordinator.Advance
import Labyrinth.Proofs.Launch.Rendezvous

/-!
# Moves in a rendezvous

When the answer comes for which a role waits, its coordinator moves on to the next request of a
rendezvous, and comes closer to its end.
-/

namespace Labyrinth

open Coordinator

namespace Rendezvous

variable {R : Rendezvous} {r : Role} {o : Sight} {c : Coordinator} {t : Nat}

/-! ## Progress -/

/-- How many events a phase is from the end, loops left out, if the plan has `m` actions. -/
def eventsLeft (m : Nat) : Phase → Nat
  | .fresh => 5 * m + 5
  | .probing _ _ rest => 5 * m + 5 + rest.length
  | .joining _ .pause => 5 * m + 5
  | .joining _ .answer => 5 * m + 4
  | .awaitingBegin _ .pause => 5 * m + 4
  | .awaitingBegin _ .answer => 5 * m + 3
  | .sending _ rest => 5 * rest.length + 7
  | .observing _ rest => 5 * rest.length + 6
  | .publishing _ rest => 5 * rest.length + 5
  | .pacing rest => 5 * rest.length + 4
  | .checking rest => 5 * rest.length + 3
  | .quitting => 2
  | .awaitingEnd _ .pause => 2
  | .awaitingEnd _ .answer => 1
  | .terminated _ _ => 0

/-- The pause of a loop takes some time. -/
def pauses : Phase → Nat
  | .joining _ .pause => 1
  | .awaitingBegin _ .pause => 1
  | .awaitingEnd _ .pause => 1
  | _ => 0

/-- What is left to a coordinator that goes on at time `t`. A loop that goes round uses up time. -/
def left (R : Rendezvous) (p : Phase) (t : Nat) : Nat :=
  2 * (R.overBy - t) + eventsLeft R.actions.length p

def Closer (R : Rendezvous) (t : Nat) (p p' : Phase) : Prop :=
  R.left p' (t + pauses p') < R.left p t

/-! ## Entering a stage -/

theorem plan_walker : (R.brief R.walker).plan = some R.actions := by
  simp [brief, Launch.brief, R.plans]

theorem plan_idle (h : r ≠ R.walker) : (R.brief r).plan = none := by
  have hne : (r == R.walker) = false := beq_eq_false_iff_ne.mpr h
  simp [brief, Launch.brief, R.plans, List.lookup_cons, hne]

theorem ready_awaitBegin (h : R.Inside r o c) (early : R.latency ≤ t) (time : t ≤ R.joinedBy) :
    R.Ready r o (c.awaitBegin ⟨t, false⟩) t := by
  refine .poll ⟨c.brief.settings.beginning, t, 1⟩
    ⟨h.brief, h.agent, h.sent, h.attempts, h.course⟩ rfl ?_ early ?_
  · rw [h.brief]
    rfl
  · exact Nat.le_add_right_of_le time

theorem ready_awaitEnd (h : R.Ending r o c) (time : t ≤ R.overBy) :
    R.Ready r o (c.awaitEnd ⟨t, false⟩) t := by
  refine .await ⟨c.brief.settings.ending, t, 1⟩
    ⟨h.brief, h.agent, h.attempts, h.began, h.idle, h.walked⟩ rfl ?_ time
  rw [h.brief]
  rfl

theorem ready_proceed {rest : List Action} (h : R.Walking r o c rest 0 t)
    (limit : ∀ d ∈ R.limit, 0 < c.commandsSent → c.commandsSent * R.settings.pacing < d) :
    R.Ready r o (c.proceed rest) t := by
  cases rest with
  | nil => exact .quit { h with } rfl
  | cons a rest => exact .send a rest { h with } rfl limit

def Moves (R : Rendezvous) (r : Role) (o : Sight) (t : Nat) (c c' : Coordinator) : Prop :=
  R.Ready r o c' t ∧ R.Closer t c.phase c'.phase

theorem Moves.of_eq {c' : Coordinator} {e : Event} {p : Phase}
    (hstep : c.advance ⟨t, false⟩ e = c') (hphase : c.phase = p) (hready : R.Ready r o c' t)
    (hcloser : R.Closer t p c'.phase) : R.Moves r o t c (c.advance ⟨t, false⟩ e) := by
  rw [hstep]
  exact ⟨hready, hphase ▸ hcloser⟩

theorem closer_of_lt {p p' : Phase} (hpause : pauses p' = 0)
    (h : eventsLeft R.actions.length p' < eventsLeft R.actions.length p) : R.Closer t p p' := by
  rw [Closer, hpause]
  exact Nat.add_lt_add_left h _

theorem closer_proceed {p : Phase} {rest : List Action}
    (h : 5 * rest.length + 2 < eventsLeft R.actions.length p) :
    R.Closer t p (c.proceed rest).phase := by
  cases rest with
  | nil => exact closer_of_lt rfl h
  | cons a rest =>
    rw [List.length_cons] at h
    refine closer_of_lt rfl ?_
    change 5 * rest.length + 7 < _
    omega

/-! ## Joining -/

theorem moves_started (h : R.Outside r o c) (hphase : c.phase = .fresh)
    (created : r = .creator → o.created = false) (time : t = R.launch.startTime r) :
    R.Moves r o t c (c.advance ⟨t, false⟩ .started) := by
  have hprobe : c.brief.settings.probeTimeout = none := by
    rw [h.brief]
    exact R.reachable.probing
  have hpolicy : c.brief.settings.joining = R.settings.joining := by
    rw [h.brief]
    rfl
  have hstep : c.advance ⟨t, false⟩ .started =
      { c with
        startedAt := t
        stages := c.stages ++ [.joining]
        phase := .joining ⟨R.settings.joining, t, 1⟩ .answer } := by
    rw [advance_fresh hphase]
    simp only [start, hprobe, join, enter, joinMove, Retry.start, Retry.ofPolicy, Retry.next,
      hpolicy, Bool.false_eq_true, if_false]
  refine .of_eq hstep hphase ?_ (closer_of_lt rfl (Nat.lt_succ_self _))
  by_cases hr : r = .creator
  · have hzero : t = 0 := by rw [time, hr]; rfl
    exact .create { h with } hr (by rw [hzero]) (created hr) hzero
  · have hstart : t = R.launch.settings.stagger := time.trans (startTime_of_ne hr)
    exact .join _ { h with } hr rfl rfl hstart (hstart ▸ stagger_le_joinedBy)

theorem moves_refused {loop : Retry} {id : String} (h : R.Outside r o c) (role : r ≠ .creator)
    (hphase : c.phase = .joining loop .answer) (policy : loop.policy = R.settings.joining)
    (start : loop.startedAt = R.launch.settings.stagger) (time : t ≤ R.latency) :
    R.Moves r o t c (c.advance ⟨t, false⟩ (.joined (.error (.notYetAvailable id)))) := by
  have hlate : loop.isLate t = false := by
    refine Retry.isLate_eq_false_iff.mpr fun d hd => ?_
    rw [start]
    exact Nat.le_trans time (R.reachable.joinDeadline d (policy ▸ hd))
  have hstep : c.advance ⟨t, false⟩ (.joined (.error (.notYetAvailable id))) =
      { c with phase := .joining loop .pause } := by
    rw [advance_joining_answer hphase]
    simp only [joinAnswer, JoinError.isRetriable, Retry.answered, hlate, joinMove,
      Bool.false_eq_true, if_true, if_false]
  refine .of_eq hstep hphase (.joinPause loop { h with } role rfl policy start time) ?_
  have hinterval : 0 < R.settings.joining.interval := R.reachable.joinInterval
  have hlatency := latency_le_joinedBy (R := R)
  have hjoined := joinedBy_le_quitBy (R := R)
  have hquit := quitBy_le_overBy (R := R)
  simp only [Closer, left, pauses, eventsLeft]
  omega

theorem moves_joinPause {loop : Retry} (h : R.Outside r o c) (role : r ≠ .creator)
    (hphase : c.phase = .joining loop .pause) (policy : loop.policy = R.settings.joining)
    (start : loop.startedAt = R.launch.settings.stagger)
    (time : t ≤ R.latency + R.settings.joining.interval) :
    R.Moves r o t c (c.advance ⟨t, false⟩ (.woken true)) := by
  have hstep : c.advance ⟨t, false⟩ (.woken true) =
      { c with phase := .joining { loop with attempts := loop.attempts + 1 } .answer } := by
    rw [advance_joining_pause hphase]
    simp only [Retry.woken, Retry.next, joinMove, Bool.false_eq_true, if_true, if_false]
  exact .of_eq hstep hphase
    (.join _ { h with } role rfl policy start (Nat.le_trans time latency_le_joinedBy))
    (closer_of_lt rfl (Nat.lt_succ_self _))

theorem moves_joined {loop : Retry} (hphase : c.phase = .joining loop .answer)
    (h : R.Inside r o { c with joinAttempts := loop.attempts }) (early : R.latency ≤ t)
    (time : t ≤ R.joinedBy) : R.Moves r o t c (c.advance ⟨t, false⟩ (.joined (.ok ()))) := by
  have hstep : c.advance ⟨t, false⟩ (.joined (.ok ())) =
      { c with joinAttempts := loop.attempts }.awaitBegin ⟨t, false⟩ := by
    rw [advance_joining_answer hphase]
    simp only [joinAnswer, Retry.answered, joinMove]
  exact .of_eq hstep hphase (ready_awaitBegin h early time)
    (closer_of_lt rfl (Nat.lt_succ_self _))

/-! ## Waiting for the beginning -/

theorem moves_pollPause {loop : Retry} (h : R.Inside r o c)
    (hphase : c.phase = .awaitingBegin loop .pause) (policy : loop.policy = R.settings.beginning)
    (start : R.latency ≤ loop.startedAt)
    (time : t ≤ R.joinedBy + R.settings.beginning.interval) :
    R.Moves r o t c (c.advance ⟨t, false⟩ (.woken true)) := by
  have hstep : c.advance ⟨t, false⟩ (.woken true) =
      { c with phase := .awaitingBegin { loop with attempts := loop.attempts + 1 } .answer } := by
    rw [advance_awaitingBegin_pause hphase]
    simp only [Retry.woken, Retry.next, beginMove, Bool.false_eq_true, if_true, if_false]
  exact .of_eq hstep hphase (.poll _ { h with } rfl policy start time)
    (closer_of_lt rfl (Nat.lt_succ_self _))

theorem moves_notBegun {loop : Retry} {status : Status} (h : R.Inside r o c)
    (hphase : c.phase = .awaitingBegin loop .answer)
    (policy : loop.policy = R.settings.beginning) (start : R.latency ≤ loop.startedAt)
    (hno : status.hasBegun = false) (time : t ≤ R.joinedBy) :
    R.Moves r o t c (c.advance ⟨t, false⟩ (.status (.ok status))) := by
  have hlate : loop.isLate t = false := by
    refine Retry.isLate_eq_false_iff.mpr fun d hd => ?_
    obtain ⟨hjoin, hstagger⟩ := R.reachable.beginDeadline d (policy ▸ hd)
    have hsum : R.joinedBy ≤ R.latency + d := Nat.max_le.mpr ⟨hstagger, Nat.add_le_add_left hjoin _⟩
    omega
  have hstep : c.advance ⟨t, false⟩ (.status (.ok status)) =
      { c with phase := .awaitingBegin loop .pause } := by
    rw [advance_awaitingBegin_answer hphase]
    simp only [Except.map, hno, Retry.pollAnswer, Retry.answered, hlate, beginMove,
      Bool.false_eq_true, if_false]
  refine .of_eq hstep hphase (.pollPause loop { h with } rfl policy start time) ?_
  have hinterval : 0 < R.settings.beginning.interval := R.reachable.beginInterval
  have hjoined := joinedBy_le_quitBy (R := R)
  have hquit := quitBy_le_overBy (R := R)
  simp only [Closer, left, pauses, eventsLeft]
  omega

theorem Inside.walking (h : R.Inside r o c) (hr : r = R.walker)
    (time : t ≤ R.joinedBy + R.settings.beginning.interval)
    (begun : ∃ b, o.begunAt = some b ∧ b ≤ t) :
    R.Walking r o { c with began := true } R.actions 0 t where
  brief := h.brief
  agent := h.agent
  attempts := h.attempts
  walker := hr
  began := rfl
  sent := by rw [h.sent, Nat.zero_add]
  course := h.course hr
  time := Nat.add_le_add_right time _
  begun := by
    obtain ⟨b, hb, hle⟩ := begun
    refine ⟨b, hb, ?_⟩
    rw [h.sent, Nat.zero_sub, Nat.zero_mul]
    exact hle
  limit _ _ hlt := by
    rw [h.sent] at hlt
    omega

theorem advance_begun {loop : Retry} {status : Status}
    (hphase : c.phase = .awaitingBegin loop .answer) (hyes : status.hasBegun) :
    c.advance ⟨t, false⟩ (.status (.ok status)) =
      { c with began := true }.activate ⟨t, false⟩ := by
  rw [advance_awaitingBegin_answer hphase]
  simp only [Except.map, hyes, Retry.pollAnswer, Retry.answered, beginMove, Retry.Outcome.poll]

theorem moves_begun_walker {loop : Retry} {status : Status} (h : R.Inside r o c)
    (hr : r = R.walker) (hphase : c.phase = .awaitingBegin loop .answer)
    (time : t ≤ R.joinedBy + R.settings.beginning.interval)
    (hyes : status.hasBegun) (begun : ∃ b, o.begunAt = some b ∧ b ≤ t) :
    R.Moves r o t c (c.advance ⟨t, false⟩ (.status (.ok status))) := by
  have hactivate : { c with began := true }.activate ⟨t, false⟩ =
      ({ c with began := true }.enter .active).proceed R.actions := by
    simp only [activate, enter, h.brief, hr, plan_walker]
  have hwalking := h.walking hr time begun
  refine .of_eq ((advance_begun hphase hyes).trans hactivate) hphase
    (ready_proceed { hwalking with } fun _ _ hlt => ?_)
    (closer_proceed (Nat.add_lt_add_left (Nat.lt_succ_self 2) _))
  change 0 < c.commandsSent at hlt
  rw [h.sent] at hlt
  exact absurd hlt (Nat.lt_irrefl 0)

theorem moves_begun_idle {loop : Retry} {status : Status} (h : R.Inside r o c)
    (hr : r ≠ R.walker) (hphase : c.phase = .awaitingBegin loop .answer)
    (time : t ≤ R.joinedBy + R.settings.beginning.interval) (hyes : status.hasBegun) :
    R.Moves r o t c (c.advance ⟨t, false⟩ (.status (.ok status))) := by
  have hactivate : { c with began := true }.activate ⟨t, false⟩ =
      ({ c with began := true }.enter .active).awaitEnd ⟨t, false⟩ := by
    simp only [activate, enter, h.brief, plan_idle hr]
  have hending : R.Ending r o ({ c with began := true }.enter .active) := {
    h with
    began := rfl
    idle := fun _ => h.sent
    walked := fun heq => absurd heq hr }
  have htime : t ≤ R.overBy :=
    Nat.le_trans time (Nat.le_trans joinedBy_le_quitBy quitBy_le_overBy)
  exact .of_eq ((advance_begun hphase hyes).trans hactivate) hphase (ready_awaitEnd hending htime)
    (closer_of_lt rfl (Nat.succ_lt_succ (Nat.zero_lt_succ _)))

/-! ## Walking -/

theorem moves_sent {a : Action} {rest : List Action} (h : R.Walking r o (counted c) rest 1 t)
    (hphase : c.phase = .sending a rest) :
    R.Moves r o t c (c.advance ⟨t, false⟩ (.sent (.ok ()))) := by
  have hstep : c.advance ⟨t, false⟩ (.sent (.ok ())) = c.commandSent a rest :=
    advance_sending hphase
  have hsent : 0 < c.commandsSent + 1 := Nat.succ_pos _
  cases htracked : c.brief.tracked with
  | true =>
    have hcommand : c.commandSent a rest = { counted c with phase := .observing a rest } := by
      simp only [commandSent, htracked, if_true, counted]
    exact .of_eq (hstep.trans hcommand) hphase (.observe a rest { h with } hsent rfl)
      (closer_of_lt rfl (Nat.lt_succ_self _))
  | false =>
    have hcommand : c.commandSent a rest = { counted c with phase := .pacing rest } := by
      simp only [commandSent, htracked, Bool.false_eq_true, if_false, counted]
    exact .of_eq (hstep.trans hcommand) hphase (.pace rest { h with } hsent rfl)
      (closer_of_lt rfl (by simp only [eventsLeft]; omega))

theorem moves_observed {a : Action} {rest : List Action} {answer : Option Observation}
    (h : R.Walking r o c rest 1 t) (hsent : 0 < c.commandsSent)
    (hphase : c.phase = .observing a rest) :
    R.Moves r o t c (c.advance ⟨t, false⟩ (.observed answer)) := by
  have hstep : c.advance ⟨t, false⟩ (.observed answer) =
      { c with phase := .publishing (c.snapshotAfter ⟨t, false⟩ a answer) rest } :=
    advance_observing hphase
  exact .of_eq hstep hphase (.publish _ rest { h with } hsent rfl)
    (closer_of_lt rfl (Nat.lt_succ_self _))

theorem moves_published {snapshot : Snapshot} {rest : List Action} (h : R.Walking r o c rest 1 t)
    (hsent : 0 < c.commandsSent) (hphase : c.phase = .publishing snapshot rest) :
    R.Moves r o t c (c.advance ⟨t, false⟩ .published) := by
  have hstep : c.advance ⟨t, false⟩ .published = { c with phase := .pacing rest } :=
    advance_publishing hphase
  exact .of_eq hstep hphase (.pace rest { h with } hsent rfl)
    (closer_of_lt rfl (Nat.lt_succ_self _))

theorem moves_paced {rest : List Action} (h : R.Walking r o c rest 0 t)
    (hsent : 0 < c.commandsSent) (hphase : c.phase = .pacing rest) :
    R.Moves r o t c (c.advance ⟨t, false⟩ (.woken true)) := by
  have hstep : c.advance ⟨t, false⟩ (.woken true) = { c with phase := .checking rest } :=
    advance_pacing hphase
  exact .of_eq hstep hphase (.check rest { h with } hsent rfl)
    (closer_of_lt rfl (Nat.lt_succ_self _))

theorem notice_began {status : Status} (h : c.began) : (c.notice status).began := by
  change (c.began || status.hasBegun) = true
  rw [h, Bool.true_or]

theorem moves_running {rest : List Action} {status : Status} (h : R.Walking r o c rest 0 t)
    (hphase : c.phase = .checking rest) (hrun : status.isRunning)
    (limit : ∀ d ∈ R.limit, c.commandsSent * R.settings.pacing < d) :
    R.Moves r o t c (c.advance ⟨t, false⟩ (.status (.ok status))) := by
  have hstep : c.advance ⟨t, false⟩ (.status (.ok status)) = (c.notice status).proceed rest := by
    rw [advance_checking hphase]
    simp only [Coordinator.checked, hrun, if_true]
  have hwalking : R.Walking r o (c.notice status) rest 0 t := {
    h with
    began := notice_began h.began }
  exact .of_eq hstep hphase (ready_proceed hwalking fun d hd _ => limit d hd)
    (closer_proceed (Nat.lt_succ_self _))

theorem moves_stopped_last {status : Status} (h : R.Walking r o c [] 0 t)
    (hphase : c.phase = .checking []) (hstop : status.isRunning = false) (ended : o.ended)
    (limit : R.limit.isSome) : R.Moves r o t c (c.advance ⟨t, false⟩ (.status (.ok status))) := by
  have hbegan : (c.notice status).began := notice_began h.began
  have hstep : c.advance ⟨t, false⟩ (.status (.ok status)) =
      (c.notice status).awaitEnd ⟨t, false⟩ := by
    rw [advance_checking hphase]
    simp only [Coordinator.checked, hstop, hbegan, List.isEmpty_nil, Bool.and_true,
      Bool.false_eq_true, if_false, if_true]
  have hdelivered : R.Delivered o c.commandsSent :=
    ⟨.inl h.sent, fun hnone => by rw [hnone] at limit; cases limit⟩
  have hending : R.Ending r o (c.notice status) := {
    h with
    began := hbegan
    idle := fun hr => absurd h.walker hr
    walked := fun _ => ⟨ended, hdelivered⟩ }
  exact .of_eq hstep hphase (ready_awaitEnd hending (Nat.le_trans h.le_quitBy quitBy_le_overBy))
    (closer_of_lt rfl (Nat.succ_lt_succ (Nat.zero_lt_succ _)))

theorem moves_stopped {a : Action} {rest : List Action} {status : Status}
    (h : R.Walking r o c (a :: rest) 0 t) (hsent : 0 < c.commandsSent)
    (hphase : c.phase = .checking (a :: rest)) (hstop : status.isRunning = false)
    (ended : o.ended) (limit : R.limit.isSome) :
    R.Moves r o t c (c.advance ⟨t, false⟩ (.status (.ok status))) := by
  obtain ⟨d, hd⟩ := Option.isSome_iff_exists.mp limit
  have hbegan : (c.notice status).began := notice_began h.began
  have hsize : (c.notice status).planSize = R.actions.length := by
    simp only [planSize, notice, h.brief, h.walker, plan_walker, Option.getD_some]
  have hstep : c.advance ⟨t, false⟩ (.status (.ok status)) =
      (c.notice status).abort ⟨t, false⟩ (.sessionStopped c.commandsSent R.actions.length) := by
    rw [advance_checking hphase]
    simp only [Coordinator.checked, hstop, hbegan, List.isEmpty_cons, Bool.and_false,
      Bool.false_eq_true, if_false, if_true, hsize]
    rfl
  refine .of_eq hstep hphase (.ended _ rfl ?_) (closer_of_lt rfl (Nat.zero_lt_succ _))
  have hrole : c.brief.role = r := by rw [h.brief]; rfl
  have hlength := h.sent
  rw [List.length_cons] at hlength
  exact {
    role := hrole
    agent := h.agent
    attempts := h.attempts
    idle := fun hr => absurd h.walker hr
    walked := fun _ => ⟨ended, .inr {
      outcome := rfl
      failure := rfl
      sent := ⟨hsent, by change c.commandsSent < _; omega⟩
      limit := ⟨d, hd, h.limit d hd⟩ }⟩ }

theorem moves_quit (h : R.Ending r o (counted c)) (hphase : c.phase = .quitting)
    (time : t ≤ R.quitBy) : R.Moves r o t c (c.advance ⟨t, false⟩ (.sent (.ok ()))) := by
  have hstep : c.advance ⟨t, false⟩ (.sent (.ok ())) = (counted c).awaitEnd ⟨t, false⟩ :=
    advance_quitting hphase
  exact .of_eq hstep hphase (ready_awaitEnd h (Nat.le_trans time quitBy_le_overBy))
    (closer_of_lt rfl (Nat.lt_succ_self _))

/-! ## Waiting for the end -/

theorem moves_awaitPause {loop : Retry} (h : R.Ending r o c)
    (hphase : c.phase = .awaitingEnd loop .pause) (policy : loop.policy = R.settings.ending)
    (time : t ≤ R.overBy) : R.Moves r o t c (c.advance ⟨t, false⟩ (.woken true)) := by
  have hstep : c.advance ⟨t, false⟩ (.woken true) =
      { c with phase := .awaitingEnd { loop with attempts := loop.attempts + 1 } .answer } := by
    rw [advance_awaitingEnd_pause hphase]
    simp only [Retry.woken, Retry.next, endMove, Bool.false_eq_true, if_true, if_false]
  exact .of_eq hstep hphase (.await _ { h with } rfl policy time)
    (closer_of_lt rfl (Nat.lt_succ_self _))

theorem moves_notOver {loop : Retry} {status : Status} (h : R.Ending r o c) (role : r ≠ R.walker)
    (hphase : c.phase = .awaitingEnd loop .answer) (policy : loop.policy = R.settings.ending)
    (time : t ≤ R.quitBy) (hrun : status.isRunning) :
    R.Moves r o t c (c.advance ⟨t, false⟩ (.status (.ok status))) := by
  have hlate : loop.isLate t = false := Retry.isLate_eq_false_iff.mpr fun d hd => by
    have hnone : R.settings.ending.deadline = none := R.reachable.endDeadline
    rw [policy, hnone] at hd
    cases hd
  have hstep : c.advance ⟨t, false⟩ (.status (.ok status)) =
      { c.notice status with phase := .awaitingEnd loop .pause } := by
    rw [advance_awaitingEnd_answer hphase]
    simp only [hrun, Bool.not_true, Retry.pollAnswer, Retry.answered, hlate, endMove,
      Bool.false_eq_true, if_false]
  have hending : R.Ending r o { c.notice status with phase := .awaitingEnd loop .pause } :=
    { h with began := notice_began h.began }
  refine .of_eq hstep hphase (.awaitPause loop hending role rfl policy time) ?_
  have hinterval : 0 < R.settings.ending.interval := R.reachable.endInterval
  have hover : R.overBy = R.quitBy + R.settings.ending.interval := rfl
  unfold Closer Rendezvous.left
  simp only [pauses, eventsLeft]
  omega

theorem moves_over {loop : Retry} {status : Status} (h : R.Ending r o c)
    (hphase : c.phase = .awaitingEnd loop .answer) (hstop : status.isRunning = false) :
    R.Moves r o t c (c.advance ⟨t, false⟩ (.status (.ok status))) := by
  have hbegan : (c.notice status).began := notice_began h.began
  have hstep : c.advance ⟨t, false⟩ (.status (.ok status)) =
      (c.notice status).terminate ⟨t, false⟩ .completed none := by
    rw [advance_awaitingEnd_answer hphase]
    simp only [hstop, Bool.not_false, Retry.pollAnswer, Retry.answered, endMove,
      Retry.Outcome.poll, hbegan, if_true]
  refine .of_eq hstep hphase (.ended _ rfl ?_) (closer_of_lt rfl (Nat.zero_lt_succ _))
  have hrole : c.brief.role = r := by rw [h.brief]; rfl
  exact {
    role := hrole
    agent := h.agent
    attempts := h.attempts
    idle := fun hr => ⟨rfl, h.idle hr⟩
    walked := fun hr => (h.walked hr).imp_right fun hd => .inl ⟨rfl, hd⟩ }

/-! ## Every event -/

theorem Waiting.moves {e : Event} (h : R.Waiting r o c t (.event e)) :
    R.Moves r o t c (c.advance ⟨t, false⟩ e) := by
  cases h with
  | fresh h phase created time => exact moves_started h phase created time
  | refused loop h role phase policy start time =>
    exact moves_refused h role phase policy start time
  | joinPause loop h role phase policy start time =>
    exact moves_joinPause h role phase policy start time
  | admitted loop h role phase early time =>
    exact moves_joined phase { h with attempts := fun hr => absurd hr role } early time
  | polled loop h phase policy start time status yes no =>
    cases hstatus : status.hasBegun with
    | true =>
      by_cases hr : r = R.walker
      · exact moves_begun_walker h hr phase time hstatus (yes hstatus)
      · exact moves_begun_idle h hr phase time hstatus
    | false => exact moves_notBegun h phase policy start hstatus (no hstatus)
  | pollPause loop h phase policy start time => exact moves_pollPause h phase policy start time
  | sent a rest h phase => exact moves_sent h phase
  | observed a rest h sent phase answer => exact moves_observed h sent phase
  | published snapshot rest h sent phase => exact moves_published h sent phase
  | paced rest h sent phase => exact moves_paced h sent phase
  | checked rest h sent phase status begun running stopped =>
    cases hstatus : status.isRunning with
    | true => exact moves_running h phase hstatus (running hstatus)
    | false =>
      obtain ⟨ended, limit⟩ := stopped hstatus
      cases rest with
      | nil => exact moves_stopped_last h phase hstatus ended limit
      | cons a rest => exact moves_stopped h sent phase hstatus ended limit
  | quit h role phase time => exact moves_quit h phase time
  | awaited loop h phase policy time status running =>
    cases hstatus : status.isRunning with
    | true =>
      obtain ⟨role, time⟩ := running hstatus
      exact moves_notOver h role phase policy time hstatus
    | false => exact moves_over h phase hstatus
  | awaitPause loop h role phase policy time => exact moves_awaitPause h phase policy time

end Rendezvous

end Labyrinth

import Labyrinth.Launch.Basic
import Labyrinth.Proofs.Engine.Course
import Labyrinth.Proofs.Timeline.World

/-!
# Rendezvous

In a rendezvous all roles of a launch meet in one session of an engine, and one of them has a plan.
This module says where each role can stand at each time, and what it relies on in the session.
-/

namespace Labyrinth

open Coordinator Engine

theorem Launch.startTime_le_stagger (l : Launch) (r : Role) :
    l.startTime r ≤ l.settings.stagger := by
  unfold startTime
  split
  · exact Nat.zero_le _
  · exact Nat.le_trans (Cancellation.wokenAt_nap_le _ _ _) (Nat.le_of_eq (Nat.zero_add _))

theorem Launch.startTime_of_ne {l : Launch} (hcancellation : l.cancellation = none) {r : Role}
    (h : r ≠ .creator) : l.startTime r = l.settings.stagger := by
  have hr : r.isCreator = false := by
    rw [Role.isCreator, decide_eq_false_iff_not]
    exact fun hn => h (congrArg Role.mk hn)
  rw [startTime, hr, hcancellation]
  exact Nat.zero_add _

/-- Every role gets into the session before its deadlines pass. -/
structure Launch.Reachable (l : Launch) (latency : Nat) : Prop where
  scene : l.sceneRoles = l.settings.roles
  pool : l.settings.roles ≤ l.pool.size
  probing : l.settings.coordinator.probeTimeout = none
  cancellation : l.cancellation = none
  joinInterval : 0 < l.settings.coordinator.joining.interval
  joinDeadline : ∀ d ∈ l.settings.coordinator.joining.deadline, latency ≤ l.settings.stagger + d
  beginInterval : 0 < l.settings.coordinator.beginning.interval
  beginDeadline : ∀ d ∈ l.settings.coordinator.beginning.deadline,
    l.settings.coordinator.joining.interval ≤ d ∧ l.settings.stagger ≤ latency + d
  endInterval : 0 < l.settings.coordinator.ending.interval
  endDeadline : l.settings.coordinator.ending.deadline = none

theorem Launch.reachable_of_standard {l : Launch} {latency : Nat}
    (hsettings : l.settings = .standard) (hscene : l.sceneRoles = 2) (hpool : 2 ≤ l.pool.size)
    (hcancellation : l.cancellation = none) (hlatency : latency ≤ 65000) : l.Reachable latency := by
  constructor
  case cancellation => exact hcancellation
  all_goals rw [hsettings]
  case scene => exact hscene
  case pool => exact hpool
  case joinDeadline =>
    rintro _ ⟨⟩
    exact hlatency
  case beginDeadline =>
    rintro _ ⟨⟩
    exact ⟨by decide, Nat.le_trans (by decide) (Nat.le_add_left _ _)⟩
  all_goals decide

/-- A launch against an engine that has no session yet, in which one role has a plan. -/
structure Rendezvous where
  launch : Launch
  engine : Engine
  walker : Role
  actions : List Action
  tracked : Bool
  reachable : launch.Reachable engine.options.creationLatency
  plans : launch.plans = [(walker, actions)]
  walker_lt : walker.number < launch.settings.roles
  unused : engine.session? launch.session = none

namespace Rendezvous

variable (R : Rendezvous)

def settings : Coordinator.Settings := R.launch.settings.coordinator

def size : Nat := R.launch.settings.roles

def latency : Nat := R.engine.options.creationLatency

def limit : Option Nat := R.engine.options.timeLimit

def brief (r : Role) : Brief := R.launch.brief R.tracked r

/-- By then every role is in the session. -/
def joinedBy : Nat := max R.launch.settings.stagger (R.latency + R.settings.joining.interval)

/-- By then the walker has quit. -/
def quitBy : Nat :=
  R.joinedBy + R.settings.beginning.interval + R.actions.length * R.settings.pacing

/-- By then every role has ended. -/
def overBy : Nat := R.quitBy + R.settings.ending.interval

/-- The pose to which the plan leads the walker. -/
def goal : Pose :=
  R.engine.movedAll (R.engine.spawn R.walker) (R.actions.map Action.command)

/-! ## What a role relies on -/

/-- What a role can tell about the session. -/
structure Sight where
  created : Bool
  agent : Option Pose
  begunAt : Option Nat
  ended : Bool

def sight (session? : Option Session) (r : Role) : Sight :=
  ⟨session?.isSome, World.agent? session? r, session?.bind (·.begunAt), session?.any (·.ended)⟩

/-- How the sight of a role may change while other roles go on. -/
structure Later (r : Role) (o o' : Sight) : Prop where
  created : r = .creator → o'.created = o.created
  agent : o'.agent = o.agent
  begun : ∀ t, o.begunAt = some t → o'.begunAt = some t
  ended : o.ended → o'.ended
  running : R.limit = none → r = R.walker → o'.ended = o.ended

/-- If the time is not limited, the rest of the plan leads the agent to the goal. -/
def Course (o : Sight) (rest : List Action) : Prop :=
  R.limit = none → o.ended = false ∧
    ∃ p, o.agent = some p ∧ R.engine.movedAll p (rest.map Action.command) = R.goal

/-- How far the walker has got with its plan when the session is over. -/
def Delivered (o : Sight) (sent : Nat) : Prop :=
  (sent = R.actions.length ∨ sent = R.actions.length + 1) ∧
    (R.limit = none → sent = R.actions.length + 1 ∧ o.agent = some R.goal)

/-! ## Where a role stands -/

structure Outside (r : Role) (o : Sight) (c : Coordinator) : Prop where
  brief : c.brief = R.brief r
  agent : o.agent = none
  sent : c.commandsSent = 0
  running : R.limit = none → r = R.walker → o.ended = false

structure Inside (r : Role) (o : Sight) (c : Coordinator) : Prop where
  brief : c.brief = R.brief r
  agent : o.agent.isSome
  sent : c.commandsSent = 0
  attempts : r = .creator → c.joinAttempts = 1
  course : r = R.walker → R.Course o R.actions

/-- The walker is on its way at time `t`. Of the pauses after the commands that it has sent, `due`
have not been made. -/
structure Walking (r : Role) (o : Sight) (c : Coordinator) (rest : List Action) (due t : Nat) :
    Prop where
  brief : c.brief = R.brief r
  agent : o.agent.isSome
  attempts : r = .creator → c.joinAttempts = 1
  walker : r = R.walker
  began : c.began
  sent : c.commandsSent + rest.length = R.actions.length
  course : R.Course o rest
  time : t + (rest.length + due) * R.settings.pacing ≤ R.quitBy
  begun : ∃ b, o.begunAt = some b ∧ b + (c.commandsSent - due) * R.settings.pacing ≤ t
  limit : ∀ d ∈ R.limit, 1 < c.commandsSent → (c.commandsSent - 1) * R.settings.pacing < d

structure Ending (r : Role) (o : Sight) (c : Coordinator) : Prop where
  brief : c.brief = R.brief r
  agent : o.agent.isSome
  attempts : r = .creator → c.joinAttempts = 1
  began : c.began
  idle : r ≠ R.walker → c.commandsSent = 0
  walked : r = R.walker → o.ended ∧ R.Delivered o c.commandsSent

structure Stopped (report : Report) : Prop where
  outcome : report.outcome = .aborted
  failure : report.failure = some (.sessionStopped report.commandsSent R.actions.length)
  sent : 0 < report.commandsSent ∧ report.commandsSent < R.actions.length
  limit : ∃ d ∈ R.limit, 1 < report.commandsSent →
    (report.commandsSent - 1) * R.settings.pacing < d

structure Ended (r : Role) (o : Sight) (report : Report) : Prop where
  role : report.role = r
  agent : o.agent.isSome
  attempts : r = .creator → report.joinAttempts = 1
  idle : r ≠ R.walker → report.outcome = .completed ∧ report.commandsSent = 0
  walked : r = R.walker → o.ended ∧
    (report.outcome = .completed ∧ R.Delivered o report.commandsSent ∨ R.Stopped report)

/-- What the coordinator of a role is about to do at time `t`. -/
inductive Ready (r : Role) (o : Sight) (c : Coordinator) (t : Nat) : Prop where
  | create (h : R.Outside r o c) (role : r = .creator)
      (phase : c.phase = .joining ⟨R.settings.joining, 0, 1⟩ .answer)
      (created : o.created = false) (time : t = 0)
  | join (loop : Retry) (h : R.Outside r o c) (role : r ≠ .creator)
      (phase : c.phase = .joining loop .answer) (policy : loop.policy = R.settings.joining)
      (start : loop.startedAt = R.launch.settings.stagger) (time : t ≤ R.joinedBy)
  | joinPause (loop : Retry) (h : R.Outside r o c) (role : r ≠ .creator)
      (phase : c.phase = .joining loop .pause) (policy : loop.policy = R.settings.joining)
      (start : loop.startedAt = R.launch.settings.stagger) (time : t ≤ R.latency)
  | poll (loop : Retry) (h : R.Inside r o c) (phase : c.phase = .awaitingBegin loop .answer)
      (policy : loop.policy = R.settings.beginning) (start : R.latency ≤ loop.startedAt)
      (time : t ≤ R.joinedBy + R.settings.beginning.interval)
  | pollPause (loop : Retry) (h : R.Inside r o c) (phase : c.phase = .awaitingBegin loop .pause)
      (policy : loop.policy = R.settings.beginning) (start : R.latency ≤ loop.startedAt)
      (time : t ≤ R.joinedBy)
  | send (a : Action) (rest : List Action) (h : R.Walking r o c (a :: rest) 0 t)
      (phase : c.phase = .sending a rest)
      (limit : ∀ d ∈ R.limit, 0 < c.commandsSent → c.commandsSent * R.settings.pacing < d)
  | observe (a : Action) (rest : List Action) (h : R.Walking r o c rest 1 t)
      (sent : 0 < c.commandsSent) (phase : c.phase = .observing a rest)
  | publish (snapshot : Snapshot) (rest : List Action) (h : R.Walking r o c rest 1 t)
      (sent : 0 < c.commandsSent) (phase : c.phase = .publishing snapshot rest)
  | pace (rest : List Action) (h : R.Walking r o c rest 1 t) (sent : 0 < c.commandsSent)
      (phase : c.phase = .pacing rest)
  | check (rest : List Action) (h : R.Walking r o c rest 0 t) (sent : 0 < c.commandsSent)
      (phase : c.phase = .checking rest)
  | quit (h : R.Walking r o c [] 0 t) (phase : c.phase = .quitting)
  | await (loop : Retry) (h : R.Ending r o c) (phase : c.phase = .awaitingEnd loop .answer)
      (policy : loop.policy = R.settings.ending) (time : t ≤ R.overBy)
  | awaitPause (loop : Retry) (h : R.Ending r o c) (role : r ≠ R.walker)
      (phase : c.phase = .awaitingEnd loop .pause) (policy : loop.policy = R.settings.ending)
      (time : t ≤ R.quitBy)
  | ended (report : Report) (report? : c.report? = some report) (h : R.Ended r o report)

def counted (c : Coordinator) : Coordinator := { c with commandsSent := c.commandsSent + 1 }

/-- What the coordinator of a role waits for, until time `t`. -/
inductive Waiting (r : Role) (o : Sight) (c : Coordinator) (t : Nat) :
    Timeline.Due World.Pending → Prop where
  | fresh (h : R.Outside r o c) (phase : c.phase = .fresh)
      (created : r = .creator → o.created = false) (time : t = R.launch.startTime r) :
      Waiting r o c t (.event .started)
  | creating (h : R.Outside r o c) (role : r = .creator)
      (phase : c.phase = .joining ⟨R.settings.joining, 0, 1⟩ .answer) (created : o.created)
      (time : t = R.latency) : Waiting r o c t (.settle (.creation R.launch.session))
  | refused (loop : Retry) (h : R.Outside r o c) (role : r ≠ .creator)
      (phase : c.phase = .joining loop .answer) (policy : loop.policy = R.settings.joining)
      (start : loop.startedAt = R.launch.settings.stagger) (time : t ≤ R.latency)
      (id : String) : Waiting r o c t (.event (.joined (.error (.notYetAvailable id))))
  | joinPause (loop : Retry) (h : R.Outside r o c) (role : r ≠ .creator)
      (phase : c.phase = .joining loop .pause) (policy : loop.policy = R.settings.joining)
      (start : loop.startedAt = R.launch.settings.stagger)
      (time : t ≤ R.latency + R.settings.joining.interval) :
      Waiting r o c t (.event (.woken true))
  | admitted (loop : Retry) (h : R.Inside r o c) (role : r ≠ .creator)
      (phase : c.phase = .joining loop .answer) (early : R.latency ≤ t) (time : t ≤ R.joinedBy) :
      Waiting r o c t (.event (.joined (.ok ())))
  | polled (loop : Retry) (h : R.Inside r o c) (phase : c.phase = .awaitingBegin loop .answer)
      (policy : loop.policy = R.settings.beginning) (start : R.latency ≤ loop.startedAt)
      (time : t ≤ R.joinedBy + R.settings.beginning.interval) (status : Status)
      (yes : status.hasBegun → ∃ b, o.begunAt = some b ∧ b ≤ t)
      (no : status.hasBegun = false → t ≤ R.joinedBy) :
      Waiting r o c t (.event (.status (.ok status)))
  | pollPause (loop : Retry) (h : R.Inside r o c) (phase : c.phase = .awaitingBegin loop .pause)
      (policy : loop.policy = R.settings.beginning) (start : R.latency ≤ loop.startedAt)
      (time : t ≤ R.joinedBy + R.settings.beginning.interval) :
      Waiting r o c t (.event (.woken true))
  | sent (a : Action) (rest : List Action) (h : R.Walking r o (counted c) rest 1 t)
      (phase : c.phase = .sending a rest) : Waiting r o c t (.event (.sent (.ok ())))
  | observed (a : Action) (rest : List Action) (h : R.Walking r o c rest 1 t)
      (sent : 0 < c.commandsSent) (phase : c.phase = .observing a rest)
      (answer : Option Observation) : Waiting r o c t (.event (.observed answer))
  | published (snapshot : Snapshot) (rest : List Action) (h : R.Walking r o c rest 1 t)
      (sent : 0 < c.commandsSent) (phase : c.phase = .publishing snapshot rest) :
      Waiting r o c t (.event .published)
  | paced (rest : List Action) (h : R.Walking r o c rest 0 t) (sent : 0 < c.commandsSent)
      (phase : c.phase = .pacing rest) : Waiting r o c t (.event (.woken true))
  | checked (rest : List Action) (h : R.Walking r o c rest 0 t) (sent : 0 < c.commandsSent)
      (phase : c.phase = .checking rest) (status : Status) (begun : status.hasBegun)
      (running : status.isRunning → ∀ d ∈ R.limit, c.commandsSent * R.settings.pacing < d)
      (stopped : status.isRunning = false → o.ended ∧ R.limit.isSome) :
      Waiting r o c t (.event (.status (.ok status)))
  | quit (h : R.Ending r o (counted c)) (role : r = R.walker) (phase : c.phase = .quitting)
      (time : t ≤ R.quitBy) : Waiting r o c t (.event (.sent (.ok ())))
  | awaited (loop : Retry) (h : R.Ending r o c) (phase : c.phase = .awaitingEnd loop .answer)
      (policy : loop.policy = R.settings.ending) (time : t ≤ R.overBy) (status : Status)
      (running : status.isRunning → r ≠ R.walker ∧ t ≤ R.quitBy) :
      Waiting r o c t (.event (.status (.ok status)))
  | awaitPause (loop : Retry) (h : R.Ending r o c) (role : r ≠ R.walker)
      (phase : c.phase = .awaitingEnd loop .pause) (policy : loop.policy = R.settings.ending)
      (time : t ≤ R.overBy) : Waiting r o c t (.event (.woken true))

/-! ## While other roles go on -/

section Later

variable {R : Rendezvous} {r : Role} {o o' : Sight} {c : Coordinator} {t due : Nat}
  {rest : List Action}

theorem Later.refl (o : Sight) : R.Later r o o :=
  ⟨fun _ => rfl, rfl, fun _ => id, id, fun _ _ => rfl⟩

variable (hl : R.Later r o o')

include hl

theorem Course.later (hr : r = R.walker) (h : R.Course o rest) : R.Course o' rest := by
  intro hlimit
  rw [hl.agent, hl.running hlimit hr]
  exact h hlimit

theorem Delivered.later {sent : Nat} (h : R.Delivered o sent) : R.Delivered o' sent := by
  rw [Delivered, hl.agent]
  exact h

theorem Outside.later (h : R.Outside r o c) : R.Outside r o' c :=
  { h with
    agent := hl.agent.trans h.agent
    running := fun hlimit hr => (hl.running hlimit hr).trans (h.running hlimit hr) }

theorem Inside.later (h : R.Inside r o c) : R.Inside r o' c :=
  { h with
    agent := hl.agent ▸ h.agent
    course := fun hr => (h.course hr).later hl hr }

theorem Walking.later (h : R.Walking r o c rest due t) : R.Walking r o' c rest due t :=
  { h with
    agent := hl.agent ▸ h.agent
    course := h.course.later hl h.walker
    begun := by
      obtain ⟨b, hb, hle⟩ := h.begun
      exact ⟨b, hl.begun b hb, hle⟩ }

theorem Ending.later (h : R.Ending r o c) : R.Ending r o' c :=
  { h with
    agent := hl.agent ▸ h.agent
    walked := fun hr => ⟨hl.ended (h.walked hr).1, (h.walked hr).2.later hl⟩ }

theorem Ended.later {report : Report} (h : R.Ended r o report) : R.Ended r o' report :=
  { h with
    agent := hl.agent ▸ h.agent
    walked := fun hr => ⟨hl.ended (h.walked hr).1,
      (h.walked hr).2.imp_left fun hd => ⟨hd.1, hd.2.later hl⟩⟩ }

theorem Waiting.later {d : Timeline.Due World.Pending} (h : R.Waiting r o c t d) :
    R.Waiting r o' c t d := by
  cases h with
  | fresh h phase created time =>
    exact .fresh (h.later hl) phase (fun hr => (hl.created hr).trans (created hr)) time
  | creating h role phase created time =>
    exact .creating (h.later hl) role phase ((hl.created role).trans created) time
  | refused loop h role phase policy start time id =>
    exact .refused loop (h.later hl) role phase policy start time id
  | joinPause loop h role phase policy start time =>
    exact .joinPause loop (h.later hl) role phase policy start time
  | admitted loop h role phase early time =>
    exact .admitted loop (h.later hl) role phase early time
  | polled loop h phase policy start time status yes no =>
    refine .polled loop (h.later hl) phase policy start time status (fun hs => ?_) no
    obtain ⟨b, hb, hle⟩ := yes hs
    exact ⟨b, hl.begun b hb, hle⟩
  | pollPause loop h phase policy start time =>
    exact .pollPause loop (h.later hl) phase policy start time
  | sent a rest h phase => exact .sent a rest (h.later hl) phase
  | observed a rest h sent phase answer => exact .observed a rest (h.later hl) sent phase answer
  | published snapshot rest h sent phase =>
    exact .published snapshot rest (h.later hl) sent phase
  | paced rest h sent phase => exact .paced rest (h.later hl) sent phase
  | checked rest h sent phase status begun running stopped =>
    exact .checked rest (h.later hl) sent phase status begun running
      fun hs => (stopped hs).imp_left hl.ended
  | quit h role phase time => exact .quit (h.later hl) role phase time
  | awaited loop h phase policy time status running =>
    exact .awaited loop (h.later hl) phase policy time status running
  | awaitPause loop h role phase policy time =>
    exact .awaitPause loop (h.later hl) role phase policy time

end Later

/-! ## When a role goes on -/

section Bounds

variable {R : Rendezvous} {r : Role} {o : Sight} {c : Coordinator} {t : Nat}
  {d : Timeline.Due World.Pending}

theorem startTime_le (r : Role) : R.launch.startTime r ≤ R.launch.settings.stagger :=
  R.launch.startTime_le_stagger r

theorem startTime_of_ne (h : r ≠ .creator) :
    R.launch.startTime r = R.launch.settings.stagger :=
  Launch.startTime_of_ne R.reachable.cancellation h

theorem stagger_le_joinedBy : R.launch.settings.stagger ≤ R.joinedBy := Nat.le_max_left _ _

theorem latency_le_joinedBy : R.latency + R.settings.joining.interval ≤ R.joinedBy :=
  Nat.le_max_right _ _

theorem joinedBy_le_quitBy : R.joinedBy + R.settings.beginning.interval ≤ R.quitBy :=
  Nat.le_add_right _ _

theorem quitBy_le_overBy : R.quitBy ≤ R.overBy := Nat.le_add_right _ _

theorem Walking.le_quitBy {rest : List Action} {due : Nat} (h : R.Walking r o c rest due t) :
    t ≤ R.quitBy :=
  Nat.le_trans (Nat.le_add_right _ _) h.time

theorem Waiting.le_joinedBy (h : R.Waiting r o c t d) (hout : o.agent = none) : t ≤ R.joinedBy := by
  have hstagger := stagger_le_joinedBy (R := R)
  have hlatency := latency_le_joinedBy (R := R)
  have hnone : ¬ o.agent.isSome := by simp [hout]
  cases h with
  | fresh _ _ _ time => exact Nat.le_trans (time ▸ startTime_le r) hstagger
  | creating _ _ _ _ time => omega
  | refused _ _ _ _ _ _ time => omega
  | joinPause _ _ _ _ _ _ time => omega
  | admitted _ h | polled _ h | pollPause _ h | sent _ _ h | observed _ _ h | published _ _ h
  | paced _ h | checked _ h | quit h | awaited _ h | awaitPause _ h => exact absurd h.agent hnone

theorem Waiting.le_latency (h : R.Waiting r o c t d) (hr : r = .creator) (hout : o.agent = none) :
    t ≤ R.latency := by
  have hnone : ¬ o.agent.isSome := by simp [hout]
  cases h with
  | fresh _ _ _ time =>
    rw [time, hr]
    exact Nat.zero_le _
  | creating _ _ _ _ time => exact Nat.le_of_eq time
  | refused _ _ role | joinPause _ _ role => exact absurd hr role
  | admitted _ h | polled _ h | pollPause _ h | sent _ _ h | observed _ _ h | published _ _ h
  | paced _ h | checked _ h | quit h | awaited _ h | awaitPause _ h => exact absurd h.agent hnone

theorem Waiting.le_quitBy (h : R.Waiting r o c t d) (hr : r = R.walker) (hend : o.ended = false) :
    t ≤ R.quitBy := by
  have hjoined := joinedBy_le_quitBy (R := R)
  have hnot : ¬ o.ended := by simp [hend]
  by_cases hout : o.agent = none
  · have := h.le_joinedBy hout
    omega
  · cases h with
    | fresh h | creating h | refused _ h | joinPause _ h => exact absurd h.agent hout
    | admitted _ _ _ _ _ time => omega
    | polled _ _ _ _ _ time => omega
    | pollPause _ _ _ _ _ time => omega
    | sent _ _ h | observed _ _ h | published _ _ h | paced _ h | checked _ h => exact h.le_quitBy
    | quit _ _ _ time => exact time
    | awaited _ h | awaitPause _ h => exact absurd (h.walked hr).1 hnot

end Bounds

end Rendezvous

end Labyrinth

import Labyrinth.Proofs.Coordinator.Commands
import Labyrinth.Proofs.Coordinator.Completion
import Labyrinth.Proofs.Engine.Course
import Labyrinth.Proofs.Launch.Meeting
import Labyrinth.Proofs.Launch.Testimony
import Labyrinth.Proofs.Route.Shortest

/-!
# Arrivals

A session that is not running takes commands and does not carry them out. A role that finds its
session running when it starts to walk, and completes its mission, has carried out all of them.
-/

namespace Labyrinth

open Coordinator Engine Timeline StateTransition Room

namespace Coordinator

variable {b : Brief} {x : Cancellation} {log : List Exchange} {now : Nat} {c : Coordinator}
  {q : Exchange} {token : String}

/-! ## Commands that were taken -/

def commands (log : List Exchange) : List Command :=
  (tokens (log.filter Exchange.isAccepted)).filterMap Command.ofToken?

@[simp] theorem commands_append (log log' : List Exchange) :
    commands (log ++ log') = commands log ++ commands log' := by
  simp only [commands, List.filter_append, tokens_append, List.filterMap_append]

theorem commands_eq_nil (h : ∀ e ∈ log, ¬ e.isSend) : commands log = [] := by
  unfold commands
  rw [tokens_eq_nil_iff.mpr fun e he => h e (List.mem_of_mem_filter he)]
  rfl

theorem commands_append_of_not_isSend (h : ¬ q.isSend) : commands (log ++ [q]) = commands log := by
  rw [commands_append, commands_eq_nil (List.forall_mem_singleton.mpr h), List.append_nil]

theorem commands_eq_of_accepted (h : ∀ e ∈ log, e.isSend → e.isAccepted) :
    commands log = (tokens log).filterMap Command.ofToken? := by
  unfold commands tokens
  rw [List.filterMap_filter]
  congr 1
  refine List.filterMap_congr fun e he => ?_
  split
  · rfl
  · rename_i hnot
    cases htoken : e.token? with
    | none => rfl
    | some token =>
      have hsend : e.isSend := by rw [Exchange.isSend, htoken]; rfl
      exact absurd (h e he hsend) hnot

theorem commands_sent (token : String) (now t : Nat) :
    commands [⟨.send token, now, .sent (.ok ()), t⟩] = [token].filterMap Command.ofToken? := rfl

theorem CarriedOut.commands_eq {plan : List Action} (h : CarriedOut plan log) :
    commands log = plan.map Action.command := by
  have hplan : (plan.map (·.command.token)).filterMap Command.ofToken? = plan.map Action.command := by
    rw [List.filterMap_map, List.filterMap_eq_map_iff_forall_eq_some]
    intro a _
    rw [Function.comp_apply, ofToken?_token]
  rw [commands_eq_of_accepted h.accepted]
  rcases h.order with horder | ⟨horder, -⟩
  · rw [horder, List.filterMap_append, hplan,
      List.filterMap_cons_none ofToken?_quitToken, List.filterMap_nil, List.append_nil]
  · rw [horder, hplan]

end Coordinator

namespace Venture

variable {V : Venture} {v r : Role} {logs : Nat → List Exchange} {tl : Room} {actions : List Action}
  {session? session?' : Option Session} {log log' : List Exchange} {c : Coordinator} {now time : Nat}
  {state : State World.Pending} {q : Exchange}

/-! ## On course -/

/-- The agent of the role stands where the commands that were taken lead. The session goes on
running for as long as a status says, unless the role quits. -/
structure OnCourse (V : Venture) (v : Role) (log : List Exchange) (session? : Option Session)
    (now : Nat) : Prop where
  pose : ∀ p, World.agent? session? v = some p →
    p = V.engine.movedAll (V.engine.spawn v) (commands log)
  running : Command.quitToken ∉ tokens log → ∀ q ∈ log, q.saysRunning → now ≤ q.answeredAt →
    Session.RunsAt V.limit q.answeredAt session?

/-- Whenever the role is sending its first command, the session is running. -/
def SendsInSession (V : Venture) (v : Role) : Prop :=
  ∀ tl, Reaches V.step V.start tl → ∀ t ∈ tl.tracks, t.coordinator.brief.role = v →
    t.coordinator.commandsSent = 0 → (∃ a rest, t.coordinator.phase = .sending a rest) →
    ∃ s, tl.world = some s ∧ s.isRunning

namespace OnCourse

variable (h : V.OnCourse v log session? now)

include h

theorem later (hle : now ≤ time) : V.OnCourse v log session? time :=
  { h with
    running := fun hquit q hq hsaid htime =>
      h.running hquit q hq hsaid (Nat.le_trans hle htime) }

theorem undisturbed (hagent : World.agent? session?' v = World.agent? session? v)
    (hrun : ∀ t, now ≤ t → Session.RunsAt V.limit t session? → Session.RunsAt V.limit t session?') :
    V.OnCourse v log session?' now where
  pose p hp := h.pose p (hagent ▸ hp)
  running hquit q hq hsaid htime := hrun _ htime (h.running hquit q hq hsaid htime)

theorem snoc (hsend : ¬ q.isSend)
    (hsaid : q.saysRunning → Session.RunsAt V.limit q.answeredAt session?) :
    V.OnCourse v (log ++ [q]) session? now where
  pose p hp := by
    rw [commands_append_of_not_isSend hsend]
    exact h.pose p hp
  running hquit := by
    rw [tokens_append_of_not_isSend hsend] at hquit
    exact List.forall_mem_append.mpr
      ⟨h.running hquit, List.forall_mem_singleton.mpr fun hq _ => hsaid hq⟩

omit h in
theorem enter (hjoins : ∀ e ∈ log, e.isJoin ∧ e.isFailure) (hsend : ¬ q.isSend)
    (hsaid : ¬ q.saysRunning) (hagent : World.agent? session?' v = some (V.engine.spawn v)) :
    V.OnCourse v (log ++ [q]) session?' now where
  pose p hp := by
    obtain rfl := Option.some.inj (hagent.symm.trans hp)
    rw [commands_append_of_not_isSend hsend,
      commands_eq_nil fun e he => Exchange.not_isSend_of_isJoin (hjoins e he).1]
    rfl
  running _ := List.forall_mem_append.mpr
    ⟨fun e he hrun => absurd hrun (Exchange.not_saysRunning_of_isFailure (hjoins e he).2),
      List.forall_mem_singleton.mpr fun hrun => absurd hrun hsaid⟩

theorem sent {token : String} {answer : Except String Unit}
    (hpose : ∀ p', World.agent? session?' v = some p' → ∃ p, World.agent? session? v = some p ∧
      p' = V.engine.movedAll p (commands [⟨.send token, now, .sent answer, now⟩]))
    (hrun : token ≠ Command.quitToken → ∀ t, now ≤ t → Session.RunsAt V.limit t session? →
      Session.RunsAt V.limit t session?') :
    V.OnCourse v (log ++ [⟨.send token, now, .sent answer, now⟩]) session?' now where
  pose p' hp' := by
    obtain ⟨p, hp, rfl⟩ := hpose p' hp'
    rw [h.pose p hp, commands_append]
    exact (List.foldl_append ..).symm
  running hquit := by
    rw [tokens_append, List.mem_append, not_or] at hquit
    obtain ⟨hquit, htoken⟩ := hquit
    have hne : token ≠ Command.quitToken := fun heq => htoken (heq ▸ List.mem_singleton_self token)
    refine forall_mem_append_singleton (fun q hq hsaid htime => ?_) (absurd · Bool.false_ne_true)
    exact hrun hne _ htime (h.running hquit q hq hsaid htime)

end OnCourse

/-! ## A step of the role itself -/

section Served

variable {request : Request} {event : Event}
  (history : History (V.brief v) V.cancellation log c time)

include history

theorem running_of_sending {a : Action} {rest : List Action} {s : Session}
    (h : V.OnCourse v log (some s) time) (hphase : c.phase = .sending a rest)
    (hfirst : c.commandsSent = 0 → (s.checkTime V.limit time).isRunning) :
    (s.checkTime V.limit time).isRunning := by
  obtain ⟨-, sent, clear⟩ : Admitted log ∧ Sent (V.brief v) log (a :: rest) ∧ _ :=
    history.stands.behind_of_phase hphase
  rcases clear with quiet | ⟨before, e, seen, st, hlog, -, -, -, hsaid, -, -, hanswered⟩
  · apply hfirst
    rw [history.stands.sent, sends_eq_nil_iff.mpr quiet]
    rfl
  · obtain ⟨done, -, htokens⟩ := sent.plan
    have hquit : Command.quitToken ∉ tokens log := by
      rw [htokens]
      intro hmem
      obtain ⟨a, -, ha⟩ := List.mem_map.mp hmem
      exact token_ne_quitToken a.command ha
    have hmem : st ∈ log := by simp [hlog]
    have hrun := h.running hquit st hmem hsaid (Nat.le_of_eq hanswered.symm)
    rw [hanswered] at hrun
    exact Session.runsAt_some.mp hrun

theorem OnCourse.served (h : V.OnCourse v log session? time) (asked : c.request = some request)
    (serves : Serves V.engine c.brief time request session? event session?')
    (hfirst : c.commandsSent = 0 → (∃ a rest, c.phase = .sending a rest) →
      ∃ s, session?' = some s ∧ s.isRunning) :
    V.OnCourse v (log ++ record request time event time) session?' time := by
  have hrole : c.brief.role = v := congrArg Brief.role history.stands.brief
  cases serves with
  | publish =>
    rw [record_publish, List.append_nil]
    exact h
  | observe => exact h.snoc Bool.false_ne_true (absurd · Bool.false_ne_true)
  | refused => exact h.snoc Bool.false_ne_true (absurd · Bool.false_ne_true)
  | admitted s =>
    have hagent : World.agent? (some (s.enrol v (V.engine.spawn v) time)) v =
        some (V.engine.spawn v) := by
      rw [World.agent?, Option.bind_some, Session.agent?_enrol, if_pos rfl]
    rw [hrole]
    exact .enter (history.joins_of_request asked) Bool.false_ne_true Bool.false_ne_true hagent
  | statusFailed => exact h.snoc Bool.false_ne_true (absurd · Bool.false_ne_true)
  | status s =>
    have hlooked : V.OnCourse v log (some (s.checkTime V.limit time)) time :=
      h.undisturbed rfl fun t hle hrun => hrun.checkTime hle
    refine hlooked.snoc Bool.false_ne_true fun hsaid => ?_
    have hrun : (s.checkTime V.engine.options.timeLimit time).isRunning := by
      simpa [Exchange.saysRunning, Exchange.status?] using hsaid
    exact (Session.runsAt_some.mpr hrun).checkTime (Nat.le_refl time)
  | sendFailed token => exact h.sent (fun p hp => ⟨p, hp, rfl⟩) fun _ _ _ => id
  | ignored token s inside stopped =>
    rcases request_send asked with ⟨a, rest, hphase, rfl⟩ | ⟨-, rfl⟩
    · refine absurd (running_of_sending history h hphase fun hzero => ?_) stopped
      obtain ⟨_, ⟨⟩, hrun⟩ := hfirst hzero ⟨a, rest, hphase⟩
      exact hrun
    · exact h.sent (fun p hp => ⟨p, hp, rfl⟩) fun hne => absurd rfl hne
  | obeyed token s inside running =>
    rw [hrole] at inside ⊢
    rcases request_send asked with ⟨a, rest, -, rfl⟩ | ⟨-, rfl⟩
    · obtain ⟨p, hp⟩ := Option.isSome_iff_exists.mp inside
      rw [obey_token (s := s.checkTime V.engine.options.timeLimit time) hp]
      have hagent : World.agent? (some ((s.checkTime V.engine.options.timeLimit time).setPose v
          (V.engine.moved p a.command))) v = some (V.engine.moved p a.command) := by
        rw [World.agent?, Option.bind_some, Session.agent?_setPose, if_pos rfl]
        exact congrArg (Option.map _) hp
      refine h.sent (fun p' hp' => ⟨p, hp, ?_⟩)
        fun _ t hle hrun => (hrun.checkTime hle).of_same rfl rfl
      obtain rfl := Option.some.inj (hagent.symm.trans hp')
      rw [commands_sent, List.filterMap_cons_some (ofToken?_token a.command)]
      rfl
    · rw [obey_quitToken]
      exact h.sent (fun p hp => ⟨p, hp, rfl⟩) fun hne => absurd rfl hne

end Served

/-! ## A step of any role -/

theorem idle_of_ne (hplans : V.launch.plans = [(v, actions)]) (hne : r ≠ v) :
    (V.brief r).plan = none := by
  have hbeq : (r == v) = false := beq_eq_false_iff_ne.mpr hne
  simp [brief, Launch.brief, hplans, List.lookup_cons, hbeq]

section Steps

variable {due : Due World.Pending} {event : Event} {order : Nat} {t : Track World.Pending}

theorem Hears.onCourse (hears : V.Hears time due log session? event log' session?')
    (lived : V.Lived v session? now log t) (hstate : t.state = .waiting time order due)
    (h : V.OnCourse v log session? time) : V.OnCourse v log' session?' time := by
  cases hears with
  | event => exact h
  | created log s =>
    obtain ⟨rfl, since, history, asked⟩ := lived.of_settle hstate
    refine .enter (history.joins_of_request asked) Bool.false_ne_true Bool.false_ne_true ?_
    rw [World.agent?, Option.bind_some, Session.agent?_enrol, if_pos rfl]

theorem Asks.onCourse (asks : V.Asks c time log session? state log' session?')
    (history : History (V.brief v) V.cancellation log c time)
    (hfirst : c.commandsSent = 0 → (∃ a rest, c.phase = .sending a rest) →
      ∃ s, session?' = some s ∧ s.isRunning)
    (h : V.OnCourse v log session? time) : V.OnCourse v log' session?' time := by
  cases asks with
  | ended | naps | probes => exact h
  | served asked serves => exact h.served history asked serves hfirst
  | creates => exact h.undisturbed rfl fun t _ hrun => by obtain ⟨_, ⟨⟩, -⟩ := hrun

end Steps

theorem Chronicle.onCourse (h : V.Chronicle logs tl) (hplans : V.launch.plans = [(v, actions)])
    (hfirst : V.SendsInSession v) : V.OnCourse v (logs v.number) tl.world tl.now := by
  induction h with
  | start =>
    have hagent : World.agent? V.start.world v = none := rfl
    exact ⟨fun p hp => by simp [hagent] at hp, fun _ => List.forall_mem_nil _⟩
  | goOn h hstep stride ih =>
    have hreach := (h.goOn hstep stride).reaches
    obtain ⟨track, waiting, first, hears, history, asks, changed⟩ := stride
    rename_i tl' i time _ t _ event _ _ _ _ state
    have hlived := h.lived track
    have hcourse := ih.later (hlived.le_time waiting)
    rw [changed.now, changed.world]
    by_cases hiv : i = v.number
    · subst hiv
      rw [Function.update_self]
      refine asks.onCourse history (fun hzero hphase => ?_) (hears.onCourse hlived waiting hcourse)
      have hmem : ⟨V.next t.coordinator time event, state⟩ ∈ tl'.tracks := by
        rw [changed.tracks]
        exact List.mem_set (List.getElem?_eq_some_iff.mp track).1 _
      have hrunning := hfirst tl' hreach _ hmem (congrArg Brief.role history.stands.brief) hzero hphase
      rwa [changed.world] at hrunning
    · rw [Function.update_of_ne (Ne.symm hiv)]
      have hne : (⟨i⟩ : Role) ≠ v := fun heq => hiv (congrArg Role.number heq)
      have hrole : (V.next t.coordinator time event).brief.role = ⟨i⟩ :=
        congrArg Brief.role history.stands.brief
      refine hcourse.undisturbed ?_ fun t hle hrun => ?_
      · rw [asks.agent?_of_ne (hrole ▸ hne.symm), hears.agent?_of_ne hlived waiting hne.symm]
      · exact asks.runsAt (history.not_send_of_idle (idle_of_ne hplans hne)) hle (hears.runsAt hrun)

/-- A role that completes its mission has got to the end of its plan. -/
theorem Chronicle.arrived (h : V.Chronicle logs tl) (hplans : V.launch.plans = [(v, actions)])
    (hfirst : V.SendsInSession v) {report : Report} (hreport : report ∈ tl.reports)
    (hrole : report.role = v) (hcompleted : report.outcome = .completed) :
    World.agent? tl.world v = some
      (V.engine.movedAll (V.engine.spawn v) (actions.map Action.command)) := by
  have hcourse := h.onCourse hplans hfirst
  obtain ⟨t, ht, hsome⟩ := List.mem_filterMap.mp hreport
  obtain ⟨i, hi⟩ := List.getElem?_of_mem ht
  have hlived := h.lived hi
  generalize hlog : logs i = log at hlived
  cases hlived with
  | fresh | told | creating => cases hsome
  | ended history reported =>
    obtain rfl := Option.some.inj hsome
    have hi : (⟨i⟩ : Role) = v := by
      rw [← hrole, (eq_of_report? reported).1, history.stands.brief]
      rfl
    subst hi
    rw [hlog] at hcourse
    have hended := history.ended reported
    rw [hcompleted] at hended
    cases hended with
    | refused _ hne => exact absurd rfl hne
    | completed e last stopped admitted finished began =>
      obtain ⟨q, hq, -, hadmission⟩ := admitted.exists_admission
      have hinside : (World.agent? tl.world ⟨i⟩).isSome :=
        (h.vouched ⟨i⟩).admitted q (hlog ▸ hq) hadmission
      obtain ⟨p, hp⟩ := Option.isSome_iff_exists.mp hinside
      have hplan : (V.brief ⟨i⟩).plan = some actions := by
        simp [Venture.brief, Launch.brief, hplans]
      rw [hp, hcourse.pose p hp, (finished.carriedOut hplan).commands_eq]

end Venture

namespace Launch

/-! ## Launches in a maze -/

/-- Whenever the role is sending its first command, the session is running. -/
def SendsInSession (l : Launch) (w : World) (v : Role) : Prop :=
  ∀ tl, Reaches (Timeline.step World.surroundings l.cancellation) (l.timeline w.board.isSome w) tl →
    ∀ t ∈ tl.tracks, t.coordinator.brief.role = v → t.coordinator.commandsSent = 0 →
      (∃ a rest, t.coordinator.phase = .sending a rest) →
      ∃ s, tl.world.engine.session? l.session = some s ∧ s.isRunning

variable {l : Launch} {grid : Grid} {start finish : Cell} {options : Engine.Options}
  {board : Option Board} {network : Network} {v : Role} {actions : List Action}

theorem SendsInSession.venture
    (h : l.SendsInSession (l.mazeWorld grid start finish options board network) v) :
    (l.mazeVenture grid start finish options network board.isSome).SendsInSession v := by
  intro tl' hreach t ht hrole hzero hphase
  obtain ⟨tl, mirrors, hworld⟩ := tr_reaches (Venture.mirrors_respects_flip _)
    (l.mirrors_mazeWorld grid start finish options board network) hreach
  have htracks : tl'.tracks = tl.tracks := congrArg Timeline.tracks mirrors.same
  obtain ⟨s, hs, hrun⟩ := h tl hworld t (htracks ▸ ht) hrole hzero hphase
  exact ⟨s, mirrors.world.session.symm.trans hs, hrun⟩

/-- A role that finds the session running when it sends its first command, and that completes its
mission, has got to the end of its route. -/
theorem completed_arrives (grid : Grid) (start finish : Cell) (v : Role)
    (hpath : Route.shortest grid start finish ≠ []) :
    ∃ actions, v.plan (Route.shortest grid start finish) start finish = .ok actions ∧
      ∀ (l : Launch) (options : Engine.Options) (board : Option Board) (network : Network),
        l.plans = [(v, actions)] →
        l.SendsInSession (l.mazeWorld grid start finish options board network) v →
        ∀ fuel tl, l.run (l.mazeWorld grid start finish options board network) fuel = some tl →
          ∀ report ∈ tl.reports, report.role = v → report.outcome = .completed →
            tl.world.engine.agentCell l.session v =
              (v.route (Route.shortest grid start finish) start finish).getLast? := by
  have hwalk := (Route.shortest_of_ne_nil hpath).1
  obtain ⟨actions, hplan, hleads⟩ :=
    Engine.exists_plan (.ofMaze grid start finish ⟨0, none⟩) v hwalk
  refine ⟨actions, hplan, fun l options board network hplans hfirst fuel tl hrun report hreport
    hrole hcompleted => ?_⟩
  obtain ⟨tl', mirrors, hended⟩ := tr_eval (Venture.mirrors_respects _)
    (l.mirrors_mazeWorld grid start finish options board network)
    (mem_eval_iff_exists_run.mpr ⟨fuel, hrun⟩)
  obtain ⟨logs, chronicle⟩ := Venture.exists_chronicle (mem_eval.mp hended).1
  have hreports : tl'.reports = tl.reports :=
    congrArg (fun tl => tl.tracks.filterMap Track.report?) mirrors.same
  have hagent := chronicle.arrived hplans hfirst.venture (hreports ▸ hreport) hrole hcompleted
  have hsession : tl.world.engine.session? l.session = tl'.world := mirrors.world.session
  rw [Engine.agentCell, hsession, (Role.walk_route hwalk).last]
  exact (congrArg (Option.map Pose.cell) hagent).trans (congrArg some hleads)

/-! ## When the session is sure to be running -/

theorem sendsInSession_of_reachable (h : l.Reachable options.creationLatency)
    (hlimit : options.timeLimit = none) (hplans : l.plans = [(v, actions)])
    (hv : v.number < l.settings.roles) :
    l.SendsInSession (l.mazeWorld grid start finish options board network) v := by
  let R : Rendezvous := {
    launch := l
    engine := .ofMaze grid start finish options
    walker := v
    actions
    tracked := board.isSome
    reachable := h
    plans := hplans
    walker_lt := hv
    unused := Std.HashMap.getElem?_empty }
  rintro tl hreach t ht - - ⟨a, rest, hphase⟩
  obtain ⟨session?, hunderway⟩ : ∃ session?, R.Underway session? tl := by
    refine invariant_of_reaches (P := fun tl => ∃ session?, R.Underway session? tl) hreach ?_
      ⟨none, R.underway_start board network⟩
    rintro before after ⟨_, hbefore⟩ hstep
    obtain ⟨session?, hafter, -⟩ := hbefore.step hstep
    exact ⟨session?, hafter⟩
  obtain ⟨i, hi⟩ := List.getElem?_of_mem ht
  have hstands := hunderway.stands i t hi
  unfold Rendezvous.Stands at hstands
  split at hstands
  · cases hstands.2 with
    | sent a rest walking =>
      obtain ⟨begun, hbegun, -⟩ := walking.begun
      have hended := (walking.course hlimit).1
      cases session? with
      | none => cases hbegun
      | some s =>
        have hbegun : s.begunAt = some begun := hbegun
        have hended : s.ended = false := hended
        exact ⟨s, hunderway.holds.session, by simp [Session.isRunning, hbegun, hended]⟩
    | fresh _ phase | creating _ _ phase | refused _ _ _ phase | joinPause _ _ _ phase
    | admitted _ _ _ phase | polled _ _ phase | pollPause _ _ phase | observed _ _ _ _ phase
    | published _ _ _ _ phase | paced _ _ _ phase | checked _ _ _ phase | quit _ _ phase
    | awaited _ _ phase | awaitPause _ _ _ phase =>
      rw [phase] at hphase
      cases hphase
  · rename_i report hstate
    obtain ⟨tl', mirrors, hroom⟩ := tr_reaches (Venture.mirrors_respects _)
      (l.mirrors_mazeWorld grid start finish options board network) hreach
    obtain ⟨logs, chronicle⟩ := Venture.exists_chronicle hroom
    have htracks : tl'.tracks = tl.tracks := congrArg Timeline.tracks mirrors.same
    have hlived := chronicle.lived (htracks ▸ hi)
    generalize logs i = log at hlived
    cases hlived with
    | fresh | told | creating => cases hstate
    | ended history reported =>
      rw [Coordinator.report?, hphase] at reported
      cases reported

/-- With the standard settings role 1 walks back from corner to corner. -/
theorem completed_arrives_standard :
    ∃ actions fuel tl report,
      Role.plan ⟨1⟩ (Route.shortest ⟨2, #[.floor, .floor, .wall, .floor]⟩ ⟨0, 0⟩ ⟨1, 1⟩)
        ⟨0, 0⟩ ⟨1, 1⟩ = .ok actions ∧
      run ⟨.standard, ⟨"maze"⟩, 2, ⟨[.onThisMachine 1, .onThisMachine 2]⟩, [(⟨1⟩, actions)], none⟩
        (mazeWorld
          ⟨.standard, ⟨"maze"⟩, 2, ⟨[.onThisMachine 1, .onThisMachine 2]⟩, [(⟨1⟩, actions)], none⟩
          ⟨2, #[.floor, .floor, .wall, .floor]⟩ ⟨0, 0⟩ ⟨1, 1⟩ .standard none .closed) fuel =
        some tl ∧
      report ∈ tl.reports ∧ report.role = ⟨1⟩ ∧ report.outcome = .completed ∧
      tl.world.engine.agentCell ⟨"maze"⟩ ⟨1⟩ = some ⟨0, 0⟩ := by
  have hwalk : Grid.Walk ⟨2, #[.floor, .floor, .wall, .floor]⟩ ⟨0, 0⟩ ⟨1, 1⟩
      [⟨0, 0⟩, ⟨1, 0⟩, ⟨1, 1⟩] :=
    ⟨rfl, rfl, by decide, by decide⟩
  have hpath := Route.shortest_ne_nil_iff.mpr ⟨_, hwalk⟩
  obtain ⟨actions, hplan, hall⟩ := completed_arrives _ ⟨0, 0⟩ ⟨1, 1⟩ ⟨1⟩ hpath
  let l : Launch :=
    ⟨.standard, ⟨"maze"⟩, 2, ⟨[.onThisMachine 1, .onThisMachine 2]⟩, [(⟨1⟩, actions)], none⟩
  have hreach : l.Reachable 0 :=
    reachable_of_standard rfl rfl (Nat.le_refl 2) rfl (Nat.zero_le _)
  let R : Rendezvous := {
    launch := l
    engine := .ofMaze ⟨2, #[.floor, .floor, .wall, .floor]⟩ ⟨0, 0⟩ ⟨1, 1⟩ .standard
    walker := ⟨1⟩
    actions
    tracked := false
    reachable := hreach
    plans := rfl
    walker_lt := Nat.lt_succ_self 1
    unused := Std.HashMap.getElem?_empty }
  obtain ⟨fuel, tl, session?, hrun, hunderway, hended⟩ := R.exists_run none .closed rfl
  obtain ⟨hroles, hreports⟩ := hunderway.reports hended
  have hmem : (⟨1⟩ : Role) ∈ tl.reports.map Report.role :=
    hroles ▸ List.mem_map.mpr ⟨1, List.mem_range.mpr (Nat.lt_succ_self 1), rfl⟩
  obtain ⟨report, hin, hrole⟩ := List.mem_map.mp hmem
  have hcompleted := ((hreports report hin).of_unlimited rfl).1
  refine ⟨actions, fuel, tl, report, hplan, hrun, hin, hrole, hcompleted, ?_⟩
  have harrived := hall l .standard none .closed rfl
    (sendsInSession_of_reachable hreach rfl rfl (Nat.lt_succ_self 1)) fuel tl hrun report hin hrole
    hcompleted
  exact harrived.trans (Role.walk_route (Route.shortest_of_ne_nil hpath).1).last

/-- Role 0 waits for a tenth of a second, and role 1 comes after three of them. -/
def hasty : Launch where
  settings := ⟨2, 300, { Coordinator.Settings.standard with beginning := ⟨200, some 100⟩ }⟩
  session := ⟨"maze"⟩
  sceneRoles := 2
  pool := ⟨[.onThisMachine 1, .onThisMachine 2]⟩
  plans := [(⟨0⟩, [⟨.moveForward, ⟨1, 1⟩⟩])]
  cancellation := none

def hastyVenture : Venture :=
  hasty.mazeVenture ⟨2, #[.floor, .floor, .wall, .floor]⟩ ⟨1, 0⟩ ⟨1, 1⟩ .standard .closed false

theorem run_hastyVenture :
    (hastyVenture.start.run hastyVenture.surroundings none 60).map
      (fun tl => (tl.reports.map fun r => (r.role, r.outcome),
        (World.agent? tl.world ⟨0⟩).map Pose.cell)) =
      some ([(⟨0⟩, .completed), (⟨1⟩, .completed)], some ⟨1, 0⟩) := by
  rfl

/-- Role 0 sends its only move before the session begins, when the move is lost. It looks at the
session after that, and completes its mission where it started. -/
theorem completed_astray :
    Route.shortest ⟨2, #[.floor, .floor, .wall, .floor]⟩ ⟨1, 0⟩ ⟨1, 1⟩ = [⟨1, 0⟩, ⟨1, 1⟩] ∧
      Role.plan ⟨0⟩ [⟨1, 0⟩, ⟨1, 1⟩] ⟨1, 0⟩ ⟨1, 1⟩ = .ok [⟨.moveForward, ⟨1, 1⟩⟩] ∧
      hasty.plans = [(⟨0⟩, [⟨.moveForward, ⟨1, 1⟩⟩])] ∧
      ∃ fuel tl report,
        hasty.run (hasty.mazeWorld ⟨2, #[.floor, .floor, .wall, .floor]⟩ ⟨1, 0⟩ ⟨1, 1⟩ .standard none
          .closed) fuel = some tl ∧
        report ∈ tl.reports ∧ report.role = ⟨0⟩ ∧ report.outcome = .completed ∧
        tl.world.engine.agentCell hasty.session ⟨0⟩ = some ⟨1, 0⟩ ∧
        (Role.route ⟨0⟩ [⟨1, 0⟩, ⟨1, 1⟩] ⟨1, 0⟩ ⟨1, 1⟩).getLast? = some ⟨1, 1⟩ := by
  have hwalk : Grid.Walk ⟨2, #[.floor, .floor, .wall, .floor]⟩ ⟨1, 0⟩ ⟨1, 1⟩ [⟨1, 0⟩, ⟨1, 1⟩] :=
    ⟨rfl, rfl, by decide, by decide⟩
  have hpath := Route.shortest_of_ne_nil (Route.shortest_ne_nil_iff.mpr ⟨_, hwalk⟩)
  refine ⟨hpath.eq_pair hwalk (by decide), rfl, rfl, ?_⟩
  obtain ⟨tl', hrun', heq⟩ := Option.map_eq_some_iff.mp run_hastyVenture
  obtain ⟨hreports, hcell⟩ := Prod.mk.inj heq
  obtain ⟨tl, mirrors, hended⟩ := tr_eval (Venture.mirrors_respects_flip _)
    (hasty.mirrors_mazeWorld ⟨2, #[.floor, .floor, .wall, .floor]⟩ ⟨1, 0⟩ ⟨1, 1⟩ .standard none
      .closed)
    (mem_eval_iff_exists_run.mpr ⟨60, hrun'⟩)
  obtain ⟨fuel, hrun⟩ := mem_eval_iff_exists_run.mp hended
  have hsame : tl'.reports = tl.reports :=
    congrArg (fun tl => tl.tracks.filterMap Track.report?) mirrors.same
  have hmem : ((⟨0⟩, .completed) : Role × Outcome) ∈ tl'.reports.map fun r => (r.role, r.outcome) :=
    hreports ▸ List.mem_cons_self
  obtain ⟨report, hreport, hpair⟩ := List.mem_map.mp hmem
  obtain ⟨hrole, hcompleted⟩ := Prod.mk.inj hpair
  have hsession : tl.world.engine.session? hasty.session = tl'.world := mirrors.world.session
  refine ⟨fuel, tl, report, hrun, hsame ▸ hreport, hrole, hcompleted, ?_, rfl⟩
  rw [Engine.agentCell, hsession]
  exact hcell

end Launch

end Labyrinth

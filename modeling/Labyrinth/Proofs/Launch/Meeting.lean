import Labyrinth.Proofs.Launch.Requests
import Labyrinth.Proofs.Route.Shortest

/-!
# The whole rendezvous

Each step of the timeline keeps all roles where the rendezvous lets them stand, and brings one of
them closer to its end. So all of them end as they should.
-/

namespace Labyrinth

open Coordinator Engine Timeline

namespace Rendezvous

variable {R : Rendezvous} {r : Role} {c : Coordinator} {now : Nat}
  {session? session?' : Option Session} {tl tl' : Timeline World World.Pending}

/-- The timeline of a rendezvous, with its session. -/
structure Underway (R : Rendezvous) (session? : Option Session)
    (tl : Timeline World World.Pending) : Prop where
  holds : R.Holds tl.world session?
  timely : R.Timely tl.now session?
  count : tl.tracks.length = R.size
  stands : ∀ i t, tl.tracks[i]? = some t → R.Stands ⟨i⟩ (sight session? ⟨i⟩) tl.now t

/-! ## The beginning -/

theorem world_shares (R : Rendezvous) (board : Option Board) (network : Network) :
    R.Holds ⟨R.engine, R.launch.hosts fun r => .engine (.ofRole r), board, network⟩ none where
  engine := ⟨_, rfl⟩
  session := R.unused
  host r hr := by
    have hmem : r ∈ R.launch.roles := List.mem_map.mpr ⟨r.number, List.mem_range.mpr hr, rfl⟩
    exact List.lookup_graph (fun r => World.Host.engine (.ofRole r)) hmem
  sound := nofun

theorem underway_start (R : Rendezvous) (board : Option Board) (network : Network) :
    R.Underway none (R.launch.timeline R.tracked
      ⟨R.engine, R.launch.hosts fun r => .engine (.ofRole r), board, network⟩) where
  holds := R.world_shares board network
  timely := ⟨nofun, nofun⟩
  count := by simp [Launch.timeline, Launch.roles, size]
  stands i t ht := by
    simp only [Launch.timeline, Launch.roles, List.map_map, List.getElem?_map,
      Option.map_eq_some_iff, Function.comp] at ht
    obtain ⟨j, hj, rfl⟩ := ht
    obtain rfl : i = j := by
      obtain ⟨hlt, heq⟩ := List.getElem?_eq_some_iff.mp hj
      simpa using heq
    exact ⟨Nat.zero_le _, .fresh ⟨rfl, rfl, rfl, fun _ _ => rfl⟩ rfl (fun _ => rfl) rfl⟩

/-! ## The clock -/

section Clock

variable {time : Nat} (h : R.Underway session? tl)
  (hfirst : ∀ u ∈ tl.tracks, ∀ time' order due, u.state = .waiting time' order due → time ≤ time')

include h hfirst

theorem Underway.le_of_waiting {bound : Nat} (hr : r.number < R.size)
    (hwait : ∀ c t d, R.Waiting r (sight session? r) c t d → t ≤ bound)
    (hend : ∀ report, ¬ R.Ended r (sight session? r) report) : time ≤ bound := by
  have hlt : r.number < tl.tracks.length := h.count.symm ▸ hr
  have hstands := h.stands r.number _ (List.getElem?_eq_getElem hlt)
  unfold Stands at hstands
  split at hstands
  · rename_i time' order due hstate
    have hle := hfirst _ (List.getElem_mem hlt) time' order due hstate
    exact Nat.le_trans hle (hwait _ _ _ hstands.2)
  · exact absurd hstands (hend _)

theorem Underway.clock (hnow : tl.now ≤ time) : R.Clock time session? := by
  have hcreator : Role.creator.number < R.size := Nat.zero_lt_of_lt R.walker_lt
  have hinside : ∀ r : Role, World.agent? session? r = none →
      ∀ report, ¬ R.Ended r (sight session? r) report := fun r hout report hend =>
    absurd hend.agent (by simp [sight, hout])
  have houtside : ∀ r : Role, r.number < R.size → World.agent? session? r = none →
      time ≤ R.joinedBy := fun r hr hout =>
    h.le_of_waiting hfirst hr (fun _ _ _ hwait => hwait.le_joinedBy hout) (hinside r hout)
  constructor
  case toTimely =>
    exact ⟨fun hin => Nat.le_trans (h.timely.late hin) hnow,
      fun b hb => Nat.le_trans (h.timely.begun b hb) hnow⟩
  case early =>
    exact fun hout => h.le_of_waiting hfirst hcreator
      (fun _ _ _ hwait => hwait.le_latency rfl hout) (hinside _ hout)
  case meeting =>
    intro hbegun
    cases session? with
    | none => exact houtside .creator hcreator rfl
    | some s =>
      obtain ⟨r, hr, hout⟩ := (h.holds.sound s rfl).exists_missing hbegun
      exact houtside r hr hout
  case running =>
    exact fun hrun => h.le_of_waiting hfirst R.walker_lt
      (fun _ _ _ hwait => hwait.le_quitBy rfl hrun)
      fun report hend => absurd (hend.walked rfl).1 (by simp [sight, hrun])

end Clock

theorem Clock.created {s : Session} (h : R.Clock now (some s)) (p : Pose)
    (htime : now = R.latency) :
    R.Clock now (some ({ s with available := true }.enrol .creator p now)) where
  toTimely := timely_enrol (s := { s with available := true }) (Nat.le_of_eq htime.symm)
    ⟨h.late, h.begun⟩
  early _ := Nat.le_of_eq htime
  meeting hnone := h.meeting (Option.eq_none_iff_forall_ne_some.mpr fun b hb =>
    Option.some_ne_none b ((Session.begunAt_enrol hb).symm.trans hnone))
  running := h.running

/-! ## Steps -/

theorem Later.trans {o o' o'' : Sight} (h : R.Later r o o') (h' : R.Later r o' o'') :
    R.Later r o o'' where
  created hr := (h'.created hr).trans (h.created hr)
  agent := h'.agent.trans h.agent
  begun b hb := h'.begun b (h.begun b hb)
  ended he := h'.ended (h.ended he)
  running hlimit hr := (h'.running hlimit hr).trans (h.running hlimit hr)

theorem Stands.later {o o' : Sight} {now' : Nat} {t : Track World.Pending}
    (h : R.Stands r o now t) (hl : R.Later r o o')
    (hnow : ∀ time order due, t.state = .waiting time order due → now' ≤ time) :
    R.Stands r o' now' t := by
  unfold Stands at *
  split
  · rename_i time order due hstate
    rw [hstate] at h
    exact ⟨hnow _ _ _ hstate, h.2.later hl⟩
  · rename_i report hstate
    rw [hstate] at h
    exact Ended.later hl h

def timelineLeft (R : Rendezvous) (tl : Timeline World World.Pending) : Nat :=
  (tl.tracks.map R.trackLeft).sum

section Step

variable {i time order : Nat} {due : Due World.Pending} {t : Track World.Pending}
  {a : Track World.Pending × World} (h : R.Underway session? tl) (ht : tl.tracks[i]? = some t)
  (hstate : t.state = .waiting time order due)
  (hfirst : ∀ u ∈ tl.tracks, ∀ time' order due, u.state = .waiting time' order due → time ≤ time')

include h ht hstate hfirst

theorem Underway.changed (hchanged : Changed tl.tracks i time a tl')
    (hserved : R.Served ⟨i⟩ c time session? session?' a)
    (hcloser : R.Closer time t.coordinator.phase c.phase) :
    R.Underway session?' tl' ∧ R.timelineLeft tl' < R.timelineLeft tl := by
  obtain ⟨hnow, htracks, hworld⟩ := hchanged
  constructor
  · constructor
    case holds => exact hworld ▸ hserved.holds
    case timely => exact hnow ▸ hserved.timely
    case count => rw [htracks, List.length_set, h.count]
    case stands =>
      intro j u hu
      rw [htracks, List.getElem?_set] at hu
      rw [hnow]
      split at hu
      · rename_i hij
        subst hij
        split at hu
        · obtain rfl := Option.some.inj hu
          exact hserved.stands
        · cases hu
      · rename_i hij
        have hne : (⟨j⟩ : Role) ≠ ⟨i⟩ := fun heq => hij (Role.mk.inj heq).symm
        exact (h.stands j u hu).later (hserved.later _ hne)
          (hfirst u (List.mem_of_getElem? hu))
  · rw [timelineLeft, htracks]
    refine sum_map_set_lt ht (Nat.lt_of_le_of_lt hserved.left ?_)
    rw [trackLeft, hstate]
    exact hcloser

theorem Underway.created {p : World.Pending} {o : Nat} (hdue : due = .settle p)
    (hwait : R.Waiting ⟨i⟩ (sight session? ⟨i⟩) t.coordinator time due)
    (hclock : R.Clock time session?) (hi : i < R.size)
    (hchanged : Changed tl.tracks i time
      (World.surroundings.resume R.launch.cancellation t time due tl.world o) tl') :
    ∃ session?', R.Underway session?' tl' ∧ R.timelineLeft tl' < R.timelineLeft tl := by
  subst hdue
  cases hwait with
  | creating hout role phase created htime =>
    obtain rfl : i = 0 := congrArg Role.number role
    obtain ⟨s, rfl⟩ : ∃ s, session? = some s := Option.isSome_iff_exists.mp created
    obtain ⟨w', hsettle, hholds⟩ := World.settle_creation (b := R.brief .creator) time h.holds rfl
      hi rfl rfl hout.agent
    have hclock' := hclock.created (R.engine.spawn .creator) htime
    have hinside := Outside.inside (s := { s with available := true })
      (c := { t.coordinator with joinAttempts := 1 }) { hout with } time fun _ => rfl
    obtain ⟨hready, hcloser⟩ := moves_joined phase hinside (Nat.le_of_eq htime.symm)
      (htime ▸ Nat.le_trans (Nat.le_add_right _ _) latency_le_joinedBy)
    obtain ⟨session?', hserved⟩ := hready.served hholds hclock' hi t o
    have hresume : World.surroundings.resume R.launch.cancellation t time
        (.settle (.creation R.launch.session)) tl.world o =
        World.surroundings.follow R.launch.cancellation t
          (t.coordinator.advance ⟨time, false⟩ (.joined (.ok ()))) time w' o := by
      have hoccur : World.surroundings.occur t.coordinator.brief time tl.world
          (.settle (.creation R.launch.session)) = (some (.joined (.ok ())), w') := by
        rw [hout.brief]
        exact hsettle
      have hreached : R.launch.cancellation.reached time = false := by
        rw [R.reachable.cancellation]
        rfl
      simp only [Surroundings.resume, hoccur, hreached]
    rw [hresume] at hchanged
    have hlater : ∀ r' : Role, r' ≠ .creator → R.Later r' (sight (some s) r')
        (sight session?' r') := fun r' hne =>
      (later_enrol (s := { s with available := true }) hne).trans (hserved.later r' hne)
    exact ⟨session?', h.changed ht hstate hfirst hchanged { hserved with later := hlater } hcloser⟩

end Step

theorem Underway.step (h : R.Underway session? tl)
    (hstep : tl.step World.surroundings R.launch.cancellation = some tl') :
    ∃ session?', R.Underway session?' tl' ∧ R.timelineLeft tl' < R.timelineLeft tl := by
  obtain ⟨i, t, time, order, due, o, ht, hstate, hfirst, hchanged⟩ := step_eq_some hstep
  have hstands := h.stands i t ht
  unfold Stands at hstands
  rw [hstate] at hstands
  obtain ⟨hnow, hwait⟩ := hstands
  have hi : i < R.size := h.count ▸ (List.getElem?_eq_some_iff.mp ht).1
  have hclock := h.clock hfirst hnow
  cases hdue : due with
  | settle p => exact h.created ht hstate hfirst hdue hwait hclock hi hchanged
  | event e =>
    subst hdue
    obtain ⟨hready, hcloser⟩ := hwait.moves
    obtain ⟨session?', hserved⟩ := hready.served h.holds hclock hi t o
    rw [R.reachable.cancellation] at hchanged hserved
    exact ⟨session?', h.changed ht hstate hfirst hchanged hserved hcloser⟩

/-! ## The end -/

theorem exists_run (R : Rendezvous) (board : Option Board) (network : Network)
    (htracked : R.tracked = board.isSome) :
    ∃ fuel tl session?,
      R.launch.run ⟨R.engine, R.launch.hosts fun r => .engine (.ofRole r), board, network⟩ fuel =
        some tl ∧
      R.Underway session? tl ∧ ∀ t ∈ tl.tracks, ∃ report, t.state = .ended report := by
  have hstep : ∀ tl tl' : Timeline World World.Pending, (∃ session?, R.Underway session? tl) →
      tl.step World.surroundings R.launch.cancellation = some tl' →
      (∃ session?, R.Underway session? tl') ∧ R.timelineLeft tl' < R.timelineLeft tl := by
    rintro tl tl' ⟨session?, h⟩ hs
    obtain ⟨session?', h', hlt⟩ := h.step hs
    exact ⟨⟨session?', h'⟩, hlt⟩
  obtain ⟨fuel, tl, hrun, ⟨session?, h⟩, hended⟩ :=
    Timeline.exists_run hstep ⟨none, R.underway_start board network⟩
  exact ⟨fuel, tl, session?, by rw [Launch.run, ← htracked]; exact hrun, h, hended⟩

section End

variable (h : R.Underway session? tl)
  (hended : ∀ t ∈ tl.tracks, ∃ report, t.state = .ended report)

include h hended

theorem Underway.ended_of_getElem? {i : Nat} {report : Report}
    (hreport : tl.reports[i]? = some report) : R.Ended ⟨i⟩ (sight session? ⟨i⟩) report := by
  have hmap : (tl.reports.map some)[i]? = (tl.tracks.map Track.report?)[i]? := by
    rw [map_some_reports hended]
  rw [List.getElem?_map, List.getElem?_map, hreport, Option.map_some, eq_comm,
    Option.map_eq_some_iff] at hmap
  obtain ⟨t, ht, hsome⟩ := hmap
  have hstands := h.stands i t ht
  unfold Stands at hstands
  unfold Track.report? at hsome
  split at hsome
  · rename_i report' hstate
    rw [hstate] at hstands
    exact Option.some.inj hsome ▸ hstands
  · cases hsome

theorem Underway.reports :
    tl.reports.map Report.role = R.launch.roles ∧
      ∀ report ∈ tl.reports, R.Ended report.role (sight session? report.role) report := by
  have hlength : tl.reports.length = R.size := by
    rw [← h.count, ← List.length_map some, map_some_reports hended, List.length_map]
  constructor
  · refine List.ext_getElem (by simp [Launch.roles, hlength, size]) fun i hi _ => ?_
    rw [List.length_map] at hi
    have hrole := (h.ended_of_getElem? hended (List.getElem?_eq_getElem hi)).role
    simp only [List.getElem_map, Launch.roles, List.getElem_range, hrole]
  · intro report hmem
    obtain ⟨i, hi⟩ := List.getElem?_of_mem hmem
    have hend := h.ended_of_getElem? hended hi
    rwa [hend.role]

end End

/-! ## Without a time limit -/

theorem Ended.of_unlimited {o : Sight} {report : Report} (h : R.Ended r o report)
    (hlimit : R.limit = none) :
    report.outcome = .completed ∧
      report.commandsSent = (if r = R.walker then R.actions.length + 1 else 0) ∧
      (r = R.walker → o.agent = some R.goal) := by
  by_cases hr : r = R.walker
  · rw [if_pos hr]
    rcases (h.walked hr).2 with ⟨hcompleted, -, hdelivered⟩ | hstopped
    · obtain ⟨hsent, hagent⟩ := hdelivered hlimit
      exact ⟨hcompleted, hsent, fun _ => hagent⟩
    · obtain ⟨d, hd, -⟩ := hstopped.limit
      rw [hlimit] at hd
      cases hd
  · rw [if_neg hr]
    obtain ⟨hcompleted, hsent⟩ := h.idle hr
    exact ⟨hcompleted, hsent, fun hw => absurd hw hr⟩

/-! ## With a time limit -/

/-- The session stopped under the walker, which had sent some of its `m` commands by then. Before
each of them but the first it was told that its time was not up. -/
structure StoppedShort (pacing limit m : Nat) (report : Report) : Prop where
  outcome : report.outcome = .aborted
  sent : 0 < report.commandsSent ∧ report.commandsSent < m
  message : report.failure.map MissionError.message = some ("Session stopped running after " ++
    toString report.commandsSent ++ " of " ++ toString m ++ " commands")
  inTime : report.commandsSent = 1 ∨ (report.commandsSent - 1) * pacing < limit

theorem Stopped.short {report : Report} {limit : Nat} (h : R.Stopped report)
    (hlimit : R.limit = some limit) :
    StoppedShort R.settings.pacing limit R.actions.length report where
  outcome := h.outcome
  sent := h.sent
  message := by
    rw [h.failure]
    rfl
  inTime := by
    obtain ⟨d, hd, hlt⟩ := h.limit
    obtain rfl := Option.some.inj (hlimit.symm.trans hd)
    have hpos := h.sent.1
    rcases Nat.eq_or_lt_of_le hpos with hone | hmore
    · exact .inl hone.symm
    · exact .inr (hlt hmore)

end Rendezvous

namespace Launch

/-- However the roles race, they all complete, and the one with the plan for the shortest route
gets to the end of its route. -/
theorem run_completes (grid : Grid) (start finish : Cell) (v : Role)
    (hpath : Route.shortest grid start finish ≠ []) :
    ∃ actions, v.plan (Route.shortest grid start finish) start finish = .ok actions ∧
      ∀ (l : Launch) (latency : Nat) (board : Option Board) (network : Network),
        l.Reachable latency → v.number < l.settings.roles → l.plans = [(v, actions)] →
        ∃ fuel tl,
          l.run ⟨.ofMaze grid start finish ⟨latency, none⟩,
            l.hosts fun r => .engine (.ofRole r), board, network⟩ fuel = some tl ∧
          tl.reports.map Report.role = l.roles ∧
          (∀ report ∈ tl.reports, report.outcome = .completed ∧
            (report.role = .creator → report.joinAttempts = 1) ∧
            report.commandsSent = if report.role = v then actions.length + 1 else 0) ∧
          tl.world.engine.agentCell l.session v = some (v.destination start finish) ∧
          (v.route (Route.shortest grid start finish) start finish).getLast? =
            some (v.destination start finish) := by
  have hwalk := (Route.shortest_of_ne_nil hpath).1
  obtain ⟨actions, hplan, hleads⟩ :=
    Engine.exists_plan (.ofMaze grid start finish ⟨0, none⟩) v hwalk
  refine ⟨actions, hplan, fun l latency board network hreach hv hplans => ?_⟩
  let R : Rendezvous := {
    launch := l
    engine := .ofMaze grid start finish ⟨latency, none⟩
    walker := v
    actions
    tracked := board.isSome
    reachable := hreach
    plans := hplans
    walker_lt := hv
    unused := Std.HashMap.getElem?_empty }
  obtain ⟨fuel, tl, session?, hrun, hunderway, hended⟩ := R.exists_run board network rfl
  obtain ⟨hroles, hreports⟩ := hunderway.reports hended
  refine ⟨fuel, tl, hrun, hroles, fun report hmem => ?_, ?_, (Role.walk_route hwalk).last⟩
  · obtain ⟨hcompleted, hsent, -⟩ := (hreports report hmem).of_unlimited rfl
    exact ⟨hcompleted, (hreports report hmem).attempts, hsent⟩
  · have hmem : v ∈ tl.reports.map Report.role :=
      hroles ▸ List.mem_map.mpr ⟨v.number, List.mem_range.mpr hv, rfl⟩
    obtain ⟨report, hin, hrole⟩ := List.mem_map.mp hmem
    obtain ⟨-, -, hagent⟩ := (hreports report hin).of_unlimited rfl
    rw [Engine.agentCell, hunderway.holds.session, ← hrole]
    exact (congrArg (Option.map Pose.cell) (hagent hrole)).trans
      (congrArg some (hleads.trans (hrole ▸ rfl)))

/-- With the standard settings a creation may take three seconds. -/
theorem run_completes_standard :
    ∃ actions fuel tl,
      Role.plan ⟨1⟩ (Route.shortest ⟨2, #[.floor, .floor, .wall, .floor]⟩ ⟨0, 0⟩ ⟨1, 1⟩)
        ⟨0, 0⟩ ⟨1, 1⟩ = .ok actions ∧
      run ⟨.standard, ⟨"maze"⟩, 2, ⟨[.onThisMachine 1, .onThisMachine 2]⟩, [(⟨1⟩, actions)], none⟩
        ⟨.ofMaze ⟨2, #[.floor, .floor, .wall, .floor]⟩ ⟨0, 0⟩ ⟨1, 1⟩ ⟨3000, none⟩,
          [(⟨0⟩, .engine (.ofRole ⟨0⟩)), (⟨1⟩, .engine (.ofRole ⟨1⟩))], none, .closed⟩ fuel =
        some tl ∧
      (∀ report ∈ tl.reports, report.outcome = .completed) ∧
      tl.world.engine.agentCell ⟨"maze"⟩ ⟨1⟩ = some ⟨0, 0⟩ := by
  have hwalk : Grid.Walk ⟨2, #[.floor, .floor, .wall, .floor]⟩ ⟨0, 0⟩ ⟨1, 1⟩
      [⟨0, 0⟩, ⟨1, 0⟩, ⟨1, 1⟩] :=
    ⟨rfl, rfl, by decide, by decide⟩
  obtain ⟨actions, hplan, hall⟩ :=
    run_completes _ ⟨0, 0⟩ ⟨1, 1⟩ ⟨1⟩ (Route.shortest_ne_nil_iff.mpr ⟨_, hwalk⟩)
  obtain ⟨fuel, tl, hrun, -, hreports, hcell, -⟩ :=
    hall ⟨.standard, ⟨"maze"⟩, 2, ⟨[.onThisMachine 1, .onThisMachine 2]⟩, [(⟨1⟩, actions)], none⟩
      3000 none .closed (reachable_of_standard rfl rfl (Nat.le_refl 2) rfl (by decide))
      (Nat.lt_succ_self 1) rfl
  exact ⟨actions, fuel, tl, hplan, hrun, fun report hin => (hreports report hin).1, hcell⟩

/-- Whenever the time is up, all roles end. Only the walker can be stopped on its way, and then it
says how far it got. -/
theorem run_limited {l : Launch} {latency : Nat} (hreach : l.Reachable latency) {v : Role}
    (hv : v.number < l.settings.roles) {actions : List Action} (hplans : l.plans = [(v, actions)])
    (grid : Grid) (start finish : Cell) (limit : Nat) (board : Option Board) (network : Network) :
    ∃ fuel tl,
      l.run ⟨.ofMaze grid start finish ⟨latency, some limit⟩,
        l.hosts fun r => .engine (.ofRole r), board, network⟩ fuel = some tl ∧
      tl.reports.map Report.role = l.roles ∧
      ∀ report ∈ tl.reports,
        (report.role ≠ v → report.outcome = .completed ∧ report.commandsSent = 0) ∧
        (report.role = v →
          report.outcome = .completed ∧
              (report.commandsSent = actions.length ∨
                report.commandsSent = actions.length + 1) ∨
            Rendezvous.StoppedShort l.settings.coordinator.pacing limit actions.length report) := by
  let R : Rendezvous := {
    launch := l
    engine := .ofMaze grid start finish ⟨latency, some limit⟩
    walker := v
    actions
    tracked := board.isSome
    reachable := hreach
    plans := hplans
    walker_lt := hv
    unused := Std.HashMap.getElem?_empty }
  obtain ⟨fuel, tl, session?, hrun, hunderway, hended⟩ := R.exists_run board network rfl
  obtain ⟨hroles, hreports⟩ := hunderway.reports hended
  refine ⟨fuel, tl, hrun, hroles, fun report hmem => ⟨(hreports report hmem).idle, fun hr => ?_⟩⟩
  rcases ((hreports report hmem).walked hr).2 with ⟨hcompleted, hsent, -⟩ | hstopped
  · exact .inl ⟨hcompleted, hsent⟩
  · exact .inr (hstopped.short rfl)

/-- With the standard settings a walker that turns round once needs longer than half a second. -/
theorem run_limited_standard : 1 < Settings.standard.roles ∧
    ∃ fuel tl,
      run ⟨.standard, ⟨"maze"⟩, 2, ⟨[.onThisMachine 1, .onThisMachine 2]⟩,
          [(⟨1⟩, List.replicate 4 ⟨.turnLeft, ⟨1, 1⟩⟩)], none⟩
        ⟨.ofMaze ⟨2, #[.floor, .floor, .wall, .floor]⟩ ⟨0, 0⟩ ⟨1, 1⟩ ⟨3000, some 500⟩,
          [(⟨0⟩, .engine (.ofRole ⟨0⟩)), (⟨1⟩, .engine (.ofRole ⟨1⟩))], none, .closed⟩ fuel =
        some tl ∧
      ∀ report ∈ tl.reports,
        (report.role ≠ ⟨1⟩ → report.outcome = .completed ∧ report.commandsSent = 0) ∧
        (report.role = ⟨1⟩ →
          report.outcome = .completed ∧ (report.commandsSent = 4 ∨ report.commandsSent = 5) ∨
            Rendezvous.StoppedShort 200 500 4 report) := by
  obtain ⟨fuel, tl, hrun, -, hreports⟩ := run_limited (v := ⟨1⟩)
    (l := ⟨.standard, ⟨"maze"⟩, 2, ⟨[.onThisMachine 1, .onThisMachine 2]⟩,
      [(⟨1⟩, List.replicate 4 ⟨.turnLeft, ⟨1, 1⟩⟩)], none⟩)
    (reachable_of_standard rfl rfl (Nat.le_refl 2) rfl (by decide : 3000 ≤ 65000))
    (Nat.lt_succ_self 1) rfl ⟨2, #[.floor, .floor, .wall, .floor]⟩ ⟨0, 0⟩ ⟨1, 1⟩ 500 none .closed
  exact ⟨by decide, fuel, tl, hrun, hreports⟩

end Launch

end Labyrinth

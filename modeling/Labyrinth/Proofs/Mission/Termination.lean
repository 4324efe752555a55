import Mathlib
import Labyrinth.Mission
import Labyrinth.Proofs.Config.Validity
import Labyrinth.Proofs.Engine.Course
import Labyrinth.Proofs.Launch.Curfew
import Labyrinth.Proofs.Launch.Steadfast
import Labyrinth.Proofs.Maze.Rooms
import Labyrinth.Proofs.Route.Shortest

/-!
# When a mission terminates

With a time limit, the launch that a valid configuration sets up always ends. Without one it can only
fail to end by stranding a role, and it strands none if some navigating role waits until all roles can
be there.
-/

namespace Labyrinth

open Coordinator Timeline StateTransition

namespace Config

variable {c : Config}

/-! ## Valid configurations -/

theorem fault?_eq_none (h : c.fault? = none) :
    (∀ i ∈ c.intervals, 0 < i.2) ∧ ∀ r ∈ c.navigators, r.number < c.roles := by
  obtain ⟨-, -, -, hpositive, hinside⟩ := fault?_eq_none_iff.mp h
  refine ⟨fun i hi => Nat.pos_of_ne_zero (hpositive i hi), fun r hr => ?_⟩
  obtain ⟨n, hn, rfl⟩ := List.mem_map.mp hr
  exact hinside n hn

theorem bounded (hvalid : c.validate = .ok ()) (session : SessionId) (sceneRoles : Nat)
    (pool : Pool) (plans : List (Role × List Action)) :
    (⟨c.launch, session, sceneRoles, pool, plans, none⟩ : Launch).Bounded := by
  obtain ⟨hpositive, -⟩ := fault?_eq_none (validate_eq_ok_iff.mp hvalid)
  simp only [intervals, List.forall_mem_cons] at hpositive
  obtain ⟨hjoin, hbegin, hend, -⟩ := hpositive
  exact ⟨rfl, hjoin, rfl, hbegin, rfl, hend⟩

/-! ## Missions with a time limit -/

/-- A valid configuration with a time limit sets up a launch that ends with a report of each role,
whichever roles walk whatever plans, and in whatever maze. -/
theorem launch_reports {limit : Nat} (hvalid : c.validate = .ok ())
    (hlimit : c.timeLimit = some limit) (session : SessionId) (sceneRoles : Nat) (pool : Pool)
    (plans : List (Role × List Action)) (grid : Grid) (start finish : Cell) (board : Option Board)
    (network : Network) :
    let l : Launch := ⟨c.launch, session, sceneRoles, pool, plans, none⟩
    ∃ fuel tl, l.run (l.mazeWorld grid start finish c.engine board network) fuel = some tl ∧
      tl.reports.map Report.role = (List.range c.roles).map Role.mk ∧
      ∀ report ∈ tl.reports, report.stages.getLast? = some (.terminated report.outcome) :=
  Launch.reports_of_limit (bounded hvalid session sceneRoles pool plans) grid start finish hlimit
    board network

/-- The standard mission with half a minute for its session. -/
def brief : Config := { standard with timeLimit := some 30000 }

/-- Nobody walks, so only the time limit ends the session. -/
theorem launch_reports_brief :
    brief.validate = .ok () ∧ brief.timeLimit = some 30000 ∧
      let l : Launch := ⟨brief.launch, ⟨"maze"⟩, 2, brief.pool, [], none⟩
      ∃ fuel tl, l.run (l.mazeWorld (.filled 5) ⟨1, 1⟩ ⟨3, 3⟩ brief.engine none .closed) fuel =
          some tl ∧
        tl.reports.map Report.role = [⟨0⟩, ⟨1⟩] ∧
        ∀ report ∈ tl.reports, report.stages.getLast? = some (.terminated report.outcome) :=
  ⟨rfl, rfl, launch_reports rfl rfl _ 2 _ [] (.filled 5) ⟨1, 1⟩ ⟨3, 3⟩ none .closed⟩

end Config

namespace Mission.Setup

variable {s : Setup}

theorem bounded_launch (hvalid : s.config.validate = .ok ()) (session : SessionId)
    (plans : List (Role × List Action)) : (s.launch session plans).Bounded :=
  Config.bounded hvalid session _ _ plans

/-! ## Plans -/

theorem exists_plans {w : List Cell} (hwalk : s.grid.Walk s.plot.start s.plot.defaultEnd w) :
    ∃ planOf : Role → List Action,
      (∀ r : Role, r.plan s.path s.plot.start s.plot.defaultEnd = .ok (planOf r)) ∧
      s.plans = .ok (s.config.navigators.reverse.map fun r => (r, planOf r)) := by
  have hpath := (Route.shortest_of_ne_nil (Route.shortest_ne_nil_iff.mpr ⟨w, hwalk⟩)).1
  let e : Engine := .ofMaze s.grid s.plot.start s.plot.defaultEnd s.config.engine
  choose planOf hplan hleads using fun r => Engine.exists_plan e r hpath
  refine ⟨planOf, hplan, ?_⟩
  have hmap : (fun r : Role => (r.plan s.path s.plot.start s.plot.defaultEnd).map fun p => (r, p)) =
      fun r => pure (r, planOf r) :=
    funext fun r => congrArg (Except.map _) (hplan r)
  rw [plans, hmap, List.mapM_pure]
  rfl

theorem plan_ne_nil {g : Grid} {start finish : Cell} {w : List Cell} {r : Role}
    {actions : List Action} (hwalk : g.Walk start finish w) (hne : start ≠ finish)
    (hplan : r.plan w start finish = .ok actions) : actions ≠ [] := by
  rintro rfl
  obtain ⟨actions, hplan', hleads⟩ :=
    Engine.exists_plan (.ofMaze g start finish ⟨0, none⟩) r hwalk
  obtain rfl : [] = actions := Except.ok.inj (hplan.symm.trans hplan')
  change (r.spawn start finish).cell = r.destination start finish at hleads
  unfold Role.spawn Role.destination at hleads
  split at hleads
  · exact hne hleads
  · exact hne hleads.symm

theorem plans_carved {σ : Type} {seed : σ} (chance : Chance σ) (hplot : s.config.plot = .ok s.plot)
    (hcells : s.config.mazeSize * s.config.mazeSize < UInt64.size)
    (hgrid : s.grid = (s.plot.carve chance seed).1) :
    ∃ plans, s.plans = .ok plans ∧ plans.map Prod.fst = s.config.navigators.reverse ∧
      ∀ r, plans.lookup r ≠ some [] := by
  have hplot : Plot.ofSize s.config.mazeSize = .ok s.plot := by
    unfold Config.plot at hplot
    split at hplot <;> cases hplot
    assumption
  have hsize := Plot.size_lt_of_withStart hplot hcells
  obtain ⟨w, hwalk⟩ := Plot.exists_walk_defaultEnd hplot hsize chance seed
  rw [← hgrid] at hwalk
  have hne : s.plot.start ≠ s.plot.defaultEnd := by
    obtain ⟨⟨hmin, -⟩, -, hs⟩ := Plot.withStart_eq_ok_iff.mp hplot
    rw [hs, Plot.defaultEnd, coordinate_of_lt hsize, ne_eq, Cell.mk.injEq]
    unfold Plot.minSize at hmin
    omega
  have hpath := (Route.shortest_of_ne_nil (Route.shortest_ne_nil_iff.mpr ⟨w, hwalk⟩)).1
  obtain ⟨planOf, hplan, hplans⟩ := exists_plans hwalk
  refine ⟨_, hplans, ?_, fun r hlookup => ?_⟩
  · rw [List.map_map]
    exact List.map_id _
  · obtain ⟨before, after, heq, -⟩ := List.lookup_eq_some_iff.mp hlookup
    have hmem : (r, []) ∈ s.config.navigators.reverse.map fun r => (r, planOf r) :=
      heq ▸ List.mem_append_right _ List.mem_cons_self
    obtain ⟨r', -, hpair⟩ := List.mem_map.mp hmem
    obtain ⟨rfl, hnil⟩ := Prod.mk.inj hpair
    exact plan_ne_nil hpath hne (hplan r') hnil

theorem steadfast_launch (hvalid : s.config.validate = .ok ()) {plans : List (Role × List Action)}
    (hroles : plans.map Prod.fst = s.config.navigators.reverse) (session : SessionId) {r : Role}
    (hr : r ∈ s.config.navigators)
    (hawaits : s.config.launch.Awaits s.config.creationLatency s.config.pool.size r) :
    (s.launch session plans).Steadfast s.config.creationLatency r where
  role := (Config.fault?_eq_none (Config.validate_eq_ok_iff.mp hvalid)).2 r hr
  plan := by
    obtain ⟨p, hp, rfl⟩ := List.mem_map.mp (hroles ▸ List.mem_reverse.mpr hr)
    exact List.lookup_isSome_iff.mpr ⟨p, hp, beq_self_eq_true _⟩
  awaits := hawaits

/-- With a maze carved by any chance, the launch of a mission without a time limit terminates if it
strands no role, and only then. It does so if there is an endpoint for each role, and some navigating
role waits until all roles can be there. -/
theorem launch_terminates {σ : Type} {seed : σ} (chance : Chance σ)
    (hvalid : s.config.validate = .ok ()) (hplot : s.config.plot = .ok s.plot)
    (hcells : s.config.mazeSize * s.config.mazeSize < UInt64.size)
    (hgrid : s.grid = (s.plot.carve chance seed).1) (hlimit : s.config.timeLimit = none) :
    ∃ plans, s.plans = .ok plans ∧ plans.map Prod.fst = s.config.navigators.reverse ∧
      ∀ (session : SessionId) (board : Option Board) (network : Network),
        ((s.launch session plans).Terminates
            { s.world network (s.launch session plans) with board } ↔
          ¬ (s.launch session plans).Strands
            { s.world network (s.launch session plans) with board }) ∧
        (s.config.roles ≤ s.config.pool.size →
          (∃ r ∈ s.config.navigators,
            s.config.launch.Awaits s.config.creationLatency s.config.pool.size r) →
          (s.launch session plans).Terminates
            { s.world network (s.launch session plans) with board }) := by
  obtain ⟨plans, hplans, hroles, hne⟩ := plans_carved chance hplot hcells hgrid
  refine ⟨plans, hplans, hroles, fun session board network => ⟨?_, fun hpool hawaits => ?_⟩⟩
  · exact Launch.terminates_iff_not_strands rfl _ _ _ hlimit board network
      (bounded_launch hvalid session plans) hne
  · obtain ⟨r, hr, hawaits⟩ := hawaits
    exact Launch.terminates_of_steadfast rfl _ _ _ hlimit board network
      (bounded_launch hvalid session plans) hne ⟨rfl, hpool⟩
      (steadfast_launch hvalid hroles session hr hawaits)

/-- The standard mission in the smallest maze. -/
def smallest : Setup where
  config := { Config.standard with mazeSize := 5 }
  plot := ⟨5, ⟨1, 1⟩⟩
  grid := Plot.carveSeeded ⟨5, ⟨1, 1⟩⟩ 0

theorem launch_terminates_smallest :
    ∃ plans, smallest.plans = .ok plans ∧ plans.map Prod.fst = [⟨0⟩] ∧ ∀ session,
      (smallest.launch session plans).Terminates
        (smallest.world .closed (smallest.launch session plans)) := by
  obtain ⟨plans, hplans, hroles, hterminates⟩ :=
    launch_terminates (s := smallest) Random.keyStream.choose rfl rfl (by decide) rfl rfl
  refine ⟨plans, hplans, hroles, fun session => (hterminates session _ _).2 (by decide) ?_⟩
  refine ⟨⟨0⟩, List.mem_singleton_self _, ?_⟩
  rintro _ ⟨⟩
  decide

/-! ## A mission that hangs -/

/-- Role 0 waits for a tenth of a second, and role 1 comes three seconds later. -/
def impatient : Setup :=
  { smallest with config := { smallest.config with beginDeadline := 100 } }

def impatientVenture (a : Action) (rest : List Action) : Venture :=
  (impatient.launch ⟨"maze"⟩ [(⟨0⟩, a :: rest)]).mazeVenture impatient.grid impatient.plot.start
    impatient.plot.defaultEnd impatient.config.engine .closed false

theorem iterate_impatientVenture (a : Action) (rest : List Action) :
    ((fun o : Option Venture.Room => o.bind (impatientVenture a rest).step)^[12]
      (some (impatientVenture a rest).start)).map (fun tl => (tl.world.map Engine.Session.isRunning,
        tl.tracks.map fun t =>
          (t.coordinator.brief.plan.isSome, t.report?.isSome, t.coordinator.phase))) =
      some (some true, [(true, true, .terminated .aborted 2400),
        (false, false, .awaitingEnd ⟨⟨500, none⟩, 5000, 1⟩ .pause)]) := by
  cbv

/-- Role 0 gives up before role 1 is there, and role 1 waits for the end. -/
theorem strands_impatient (a : Action) (rest : List Action) :
    (impatient.launch ⟨"maze"⟩ [(⟨0⟩, a :: rest)]).Strands
      { impatient.world .closed (impatient.launch ⟨"maze"⟩ [(⟨0⟩, a :: rest)]) with
        board := none } := by
  let V := impatientVenture a rest
  obtain ⟨tl', hiterate, hlook⟩ := Option.map_eq_some_iff.mp (iterate_impatientVenture a rest)
  obtain ⟨hworld, htracks⟩ := Prod.mk.inj hlook
  obtain ⟨tl, mirrors, hreach⟩ := tr_reaches V.mirrors_respects_flip
    (V.launch.mirrors_mazeWorld _ _ _ _ none .closed) (reaches_of_iterate hiterate)
  refine ⟨tl, hreach, mirrors.stranded_iff.mpr ?_⟩
  obtain ⟨creator, others, hcreator, hfirst, hothers⟩ := List.map_eq_cons_iff.mp htracks
  obtain ⟨second, none, hsecond, hidle, hnone⟩ := List.map_eq_cons_iff.mp hothers
  obtain rfl := List.map_eq_nil_iff.mp hnone
  subst hsecond
  simp only [Prod.mk.injEq] at hfirst hidle
  refine ⟨⟨Option.map_eq_some_iff.mp hworld, ?gone⟩, ?left⟩
  case gone =>
    rw [hcreator]
    refine List.forall_mem_cons.mpr ⟨fun _ => ?_, List.forall_mem_singleton.mpr fun hplan => ?_⟩
    · obtain ⟨report, hreport⟩ := Option.isSome_iff_exists.mp hfirst.2.1
      unfold Track.report? at hreport
      split at hreport
      · exact ⟨_, ‹_›⟩
      · cases hreport
    · rw [hidle.1] at hplan
      cases hplan
  case left =>
    rw [hcreator]
    exact ⟨second, by simp, _, hidle.2.2⟩

/-- A valid mission without a time limit whose launch never ends. -/
theorem launch_hangs :
    impatient.config.validate = .ok () ∧ impatient.config.plot = .ok impatient.plot ∧
      impatient.config.roles ≤ impatient.config.pool.size ∧
      impatient.config.navigators = [⟨0⟩] ∧ impatient.config.timeLimit = none ∧
      ∃ plans, impatient.plans = .ok plans ∧ ∀ fuel,
        (impatient.launch ⟨"maze"⟩ plans).run
          { impatient.world .closed (impatient.launch ⟨"maze"⟩ plans) with board := none } fuel =
          none := by
  refine ⟨rfl, rfl, by decide, rfl, rfl, ?_⟩
  have hplot : Plot.withStart 5 ⟨1, 1⟩ = .ok impatient.plot := rfl
  obtain ⟨w, hwalk⟩ := Plot.exists_walk_defaultEnd hplot (by decide) Random.keyStream.choose (.ofSeed 0)
  obtain ⟨planOf, hplan, hplans⟩ := exists_plans (s := impatient) hwalk
  refine ⟨_, hplans, fun fuel => ?_⟩
  have hpath := (Route.shortest_of_ne_nil (Route.shortest_ne_nil_iff.mpr ⟨w, hwalk⟩)).1
  obtain ⟨a, rest, hcons⟩ := List.exists_cons_of_ne_nil
    (plan_ne_nil hpath (by decide) (hplan ⟨0⟩))
  have hmap : (impatient.config.navigators.reverse.map fun r => (r, planOf r)) =
      [(⟨0⟩, a :: rest)] :=
    congrArg (fun plan => [((⟨0⟩ : Role), plan)]) hcons
  rw [hmap]
  exact Launch.run_eq_none_of_strands rfl _ _ _ rfl none .closed rfl (strands_impatient a rest) fuel

end Mission.Setup

end Labyrinth

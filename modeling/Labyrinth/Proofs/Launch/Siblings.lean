import Labyrinth.Launch.Basic
import Labyrinth.Proofs.Timeline.Later
import Labyrinth.Proofs.Timeline.World

/-!
# Siblings in a launch

The roles of a launch have hosts that share nothing. Then each of them comes to the same report as
if it ran alone, and one whose host breaks down is lost without any harm to the others.
-/

namespace Labyrinth

open Coordinator Timeline

variable {σ π : Type}

namespace Launch

variable {l : Launch} {host : Role → Surroundings σ π} {w : Fleet σ} {r : Role} {report : Report}

/-! ## Mustering -/

theorem startTime_eq (r : Role) :
    l.startTime r = if r.isCreator then 0
      else l.cancellation.elim l.settings.stagger (min l.settings.stagger) := by
  unfold startTime
  refine if_congr Iff.rfl rfl ?_
  cases l.cancellation with
  | none => exact Nat.zero_add _
  | some t =>
    simp only [Cancellation.nap, Option.elim_some, Nat.zero_add, Nat.zero_max]
    split
    · exact (Nat.min_eq_right (Nat.le_of_lt ‹_›)).symm
    · exact (Nat.min_eq_left (Nat.not_lt.mp ‹_›)).symm

theorem startTime_le_cancellation (r : Role) : ∀ t ∈ l.cancellation, l.startTime r ≤ t := by
  intro t ht
  rw [startTime_eq, Option.mem_def.mp ht]
  split
  · exact Nat.zero_le t
  · exact Nat.min_le_right _ _

theorem musterFrom_eq {τ η : Type} (make : Role → StateM τ η) {number now : Nat}
    (h : (if number = 1 then (l.cancellation.nap now l.settings.stagger).wokenAt else now) =
      l.startTime ⟨number⟩) (left : Nat) :
    l.musterFrom make number now left =
      ((List.range' number left).map Role.mk).mapM fun r => return (r, l.startTime r, ← make r) := by
  induction left generalizing number now with
  | zero => rfl
  | succ left ih =>
    have hnext : (if number + 1 = 1 then
        (l.cancellation.nap (l.startTime ⟨number⟩) l.settings.stagger).wokenAt
          else l.startTime ⟨number⟩) = l.startTime ⟨number + 1⟩ := by
      cases number <;> rfl
    rw [List.range'_succ, List.map_cons, List.mapM_cons, musterFrom, ← ih hnext]
    simp only [h, bind_assoc, pure_bind]

theorem muster_eq {τ η : Type} (make : Role → StateM τ η) :
    l.muster make = l.roles.mapM fun r => return (r, l.startTime r, ← make r) := by
  rw [muster, musterFrom_eq make rfl, ← List.range_eq_range']
  rfl

/-! ## Running alone -/

/-- The timeline of one role that runs alone, on a clock that starts with it. -/
def solo (l : Launch) (w : Fleet σ) (r : Role) : Timeline (Fleet σ) π :=
  .alone (l.brief w.board.isSome r) w

/-- The hosts on the clock of a role. -/
def soloSurroundings (l : Launch) (host : Role → Surroundings σ π) (r : Role) :
    Surroundings (Fleet σ) π :=
  Fleet.surroundings fun q => (host q).since (l.startTime r)

/-- The coordinator of a role comes to a report when it runs alone. -/
def ReportsAlone (l : Launch) (host : Role → Surroundings σ π) (w : Fleet σ) (r : Role)
    (report : Report) : Prop :=
  ∃ fuel tl t, (l.solo w r).run (l.soloSurroundings host r) (l.cancellation.since (l.startTime r))
    fuel = some tl ∧ tl.tracks = [t] ∧ t.coordinator.report? = some report

/-- The host of a role breaks down when the role runs alone. -/
def PanicsAlone (l : Launch) (host : Role → Surroundings σ π) (w : Fleet σ) (r : Role) : Prop :=
  Timeline.Panics (l.soloSurroundings host r) (l.cancellation.since (l.startTime r)) (l.solo w r)

theorem ReportsAlone.not_panics (h : l.ReportsAlone host w r report) :
    ¬ l.PanicsAlone host w r ∧ report ≠ .lost r (.taskFailed r) ∧ report.role = r := by
  obtain ⟨fuel, tl, t, hrun, ht, hreport⟩ := h
  obtain ⟨u, hu, hbrief, hsound, hpanics⟩ := exists_track_of_run hrun
  obtain rfl : t = u := by rwa [ht, List.singleton_inj] at hu
  have hrole := t.role_finalReport
  rw [Track.finalReport, hreport, Option.getD_some, hbrief] at hrole
  refine ⟨fun hp => ?_, hsound.opened.report_ne_lost hreport _ _, hrole⟩
  rw [hpanics.mpr hp] at hreport
  cases hreport

theorem finalReport_alone_iff :
    (∃ fuel tl t, (l.solo w r).run (l.soloSurroundings host r)
        (l.cancellation.since (l.startTime r)) fuel = some tl ∧ tl.tracks = [t] ∧
          t.finalReport = report) ↔
      l.ReportsAlone host w r report ∨
        l.PanicsAlone host w r ∧ report = .lost r (.taskFailed r) := by
  constructor
  · rintro ⟨fuel, tl, t, hrun, ht, rfl⟩
    obtain ⟨u, hu, hbrief, -, hpanics⟩ := exists_track_of_run hrun
    obtain rfl : t = u := by rwa [ht, List.singleton_inj] at hu
    cases hreport : t.coordinator.report? with
    | none =>
      rw [Track.finalReport, hreport, hbrief, Option.getD_none]
      exact .inr ⟨hpanics.mp hreport, rfl⟩
    | some report =>
      rw [Track.finalReport, hreport, Option.getD_some]
      exact .inl ⟨fuel, tl, t, hrun, ht, hreport⟩
  · rintro (⟨fuel, tl, t, hrun, ht, hreport⟩ | ⟨hpanics, rfl⟩)
    · exact ⟨fuel, tl, t, hrun, ht, by rw [Track.finalReport, hreport, Option.getD_some]⟩
    · obtain ⟨fuel, tl, t, hrun, ht, hnone⟩ := hpanics.exists_run
      obtain ⟨u, hu, hbrief, -⟩ := exists_track_of_run hrun
      obtain rfl : t = u := by rwa [ht, List.singleton_inj] at hu
      exact ⟨fuel, tl, t, hrun, ht, by
        rw [Track.finalReport, hnone, hbrief, Option.getD_none]; rfl⟩

/-! ## Running together -/

theorem nodup_roles : l.roles.Nodup := by
  refine List.nodup_range.map fun a b h => ?_
  exact (Role.mk.injEq a b).mp h

theorem roles_timeline (tracked : Bool) (w : Fleet σ) :
    Fleet.roles (l.timeline (π := π) tracked w) = l.roles := by
  rw [Fleet.roles, timeline, List.map_map]
  exact List.map_id _

theorem accountable_timeline {ω : Type} (s : Surroundings ω π) (x : Cancellation) (tracked : Bool)
    (w : ω) : Accountable s x (l.timeline tracked w) (l.timeline tracked w) where
  reached := .refl
  sound t ht := by
    obtain ⟨r, -, rfl⟩ := List.mem_map.mp ht
    exact Track.sound_starting _ _ _
  lost t ht _ hr := by
    obtain ⟨r, -, rfl⟩ := List.mem_map.mp ht
    cases hr

/-- A launch in which every role has a host of its own comes to these reports. -/
def Returns (l : Launch) (host : Role → Surroundings σ π) (w : Fleet σ) (rs : List Report) : Prop :=
  ∃ fuel tl, (l.timeline w.board.isSome w).run (Fleet.surroundings host) l.cancellation fuel =
    some tl ∧ tl.reports = rs

theorem returns_iff (l : Launch) (host : Role → Surroundings σ π) (w : Fleet σ)
    (rs : List Report) :
    l.Returns host w rs ↔
      List.Forall₂ (fun r report => l.ReportsAlone host w r report ∨
        l.PanicsAlone host w r ∧ report = .lost r (.taskFailed r)) l.roles rs := by
  have hnodup : (Fleet.roles (l.timeline (π := π) w.board.isSome w)).Nodup := by
    rw [roles_timeline]
    exact nodup_roles
  have hrun := Fleet.exists_run_iff host l.cancellation
    (fun e : Track π × σ => e.1.finalReport) hnodup rs
  have hfates : Fleet.fates host l.cancellation (l.timeline w.board.isSome w) = l.roles.map fun r =>
      StateTransition.eval (Fleet.goOn host l.cancellation)
        (Fleet.lane w (.starting (l.brief w.board.isSome r) (l.startTime r) r.number)) := by
    rw [Fleet.fates, Fleet.lanes, timeline, List.map_map, List.map_map]
    rfl
  have halone : ∀ r report, (∃ e ∈ StateTransition.eval (Fleet.goOn host l.cancellation)
      (Fleet.lane w (.starting (l.brief w.board.isSome r) (l.startTime r) r.number)),
        e.1.finalReport = report) ↔ l.ReportsAlone host w r report ∨
          l.PanicsAlone host w r ∧ report = .lost r (.taskFailed r) := fun r report =>
    (Fleet.exists_end_starting_iff (startTime_le_cancellation r) _ w _ report).trans
      finalReport_alone_iff
  rw [hfates, List.forall₂_map_left_iff] at hrun
  simp only [halone] at hrun
  rw [← hrun]
  refine exists_congr fun fuel => exists_congr fun tl => and_congr_right fun hend => ?_
  rw [Fleet.map_finalReport_lanes, ((accountable_timeline _ _ _ _).of_run hend).2.2]

theorem Returns.roles {rs : List Report} (h : l.Returns host w rs) : rs.map Report.role = l.roles := by
  have hroles := ((returns_iff l host w rs).mp h).imp fun r report hreport =>
    show r = report.role from ?_
  · rw [← List.forall₂_map_right_iff, List.forall₂_eq_eq_eq] at hroles
    exact hroles.symm
  · rcases hreport with hreport | ⟨-, rfl⟩
    · exact hreport.not_panics.2.2.symm
    · rfl

end Launch

/-! ## Scripted hosts -/

namespace Script

/-- A scripted host by itself, with the network that its role probes. -/
def surroundings (network : Network) : Surroundings Host World.Pending where
  take b request now h :=
    match request with
    | .probe endpoint limit => (network.probe b.role endpoint limit now, h)
    | .join =>
      let (line, h) := h.join now b.role b.session b.pool.size
      (World.replyOf .joined line, h)
    | .status =>
      let (line, h) := h.status now
      (World.replyOf .status line, h)
    | .send token =>
      let (line, h) := h.send now token
      (World.replyOf .sent line, h)
    | .observe =>
      let (line, h) := h.observe now
      (World.replyOf .observed line, h)
    | _ => (.crash, h)
  settle _ p _ h :=
    match p with
    | .tell answer => (answer, h)
    | .creation _ => (none, h)

/-- The world has the scripted hosts of a fleet for these roles, its board, and the network. -/
structure Manned (network : Network) (roles : List Role) (w : World) (f : Fleet Host) : Prop where
  network : w.network = network
  board : f.board = w.board
  host : ∀ r ∈ roles, w.host? r = some (.scripted (f.states r))

variable {network : Network} {roles : List Role} {w : World} {f : Fleet Host}

theorem Manned.setHost (h : Manned network roles w f) {r : Role} (hr : r ∈ roles) (host : Host) :
    Manned network roles (w.setHost r (.scripted host))
      { f with states := Function.update f.states r host } where
  network := h.network
  board := h.board
  host q hq := by
    rw [World.host?_setHost]
    dsimp only
    split
    · subst q
      rw [h.host r hr, Function.update_self, Option.map_some]
    · rename_i hne
      rw [h.host q hq, Function.update_of_ne hne]

/-- A scripted host always knows its answer from the start. -/
def Told (_ : Brief) (p : World.Pending) : Prop := ∃ answer, p = .tell answer

theorem mimics_fleet (network : Network) (roles : List Role) :
    Mimics World.surroundings (Fleet.surroundings fun _ => surroundings network)
      (Manned network roles) (fun b => b.role ∈ roles) Told where
  take now {b request w f} h hb hnap := by
    have hhost := h.host b.role hb
    cases request with
    | probe endpoint limit =>
      simp only [World.surroundings, World.take, Fleet.surroundings, Fleet.take, surroundings,
        Function.update_eq_self, h.network]
      exact ⟨trivial, h.network, h.board, h.host⟩
    | publish snapshot =>
      have hboard := congrArg (Option.map fun board : Board => board.publish snapshot) h.board
      exact ⟨rfl, h.network, hboard, h.host⟩
    | nap span => exact absurd rfl (hnap span)
    | join | status | send | observe =>
      simp only [World.surroundings, World.take, hhost]
      exact ⟨rfl, h.setHost hb _⟩
  fits {b request now f span p} hb hlater := by
    cases request with
    | join | status | send | observe =>
      cases hlater
      exact ⟨_, rfl⟩
    | probe | publish | nap => cases hlater
  settle now {b p w f} h hb hp := by
    obtain ⟨answer, rfl⟩ := hp
    refine ⟨rfl, h.network, h.board, fun r hr => ?_⟩
    simp only [Fleet.surroundings, Fleet.settle, surroundings, Function.update_eq_self]
    exact h.host r hr

end Script

/-- Scripted hosts share nothing: a launch with them comes to the reports of a fleet. -/
theorem Launch.run_scripted_iff (l : Launch) (script : Role → Script.Host) {w : World}
    (h : ∀ r ∈ l.roles, w.host? r = some (.scripted (script r))) (rs : List Report) :
    (∃ fuel tl, l.run w fuel = some tl ∧ tl.reports = rs) ↔
      l.Returns (fun _ => Script.surroundings w.network) ⟨script, w.board⟩ rs := by
  have hmimics := Script.mimics_fleet w.network l.roles
  have halike : Alike (Script.Manned w.network l.roles) (fun b => b.role ∈ l.roles) Script.Told
      (l.timeline w.board.isSome w) (l.timeline w.board.isSome ⟨script, w.board⟩) := by
    refine .of_withWorld ⟨rfl, rfl, h⟩ fun t ht => ?_
    obtain ⟨r, hr, rfl⟩ := List.mem_map.mp ht
    exact ⟨hr, fun _ _ _ hstate => by cases hstate⟩
  have hreports : ∀ {tl : Timeline World World.Pending} {tl'},
      Alike (Script.Manned w.network l.roles) (fun b => b.role ∈ l.roles) Script.Told tl tl' →
        tl'.reports = tl.reports := fun halike =>
    congrArg (fun tracks => tracks.filterMap Track.report?) (congrArg Timeline.tracks halike.same)
  constructor
  · rintro ⟨fuel, tl, hrun, rfl⟩
    obtain ⟨tl', halike', hend⟩ := StateTransition.tr_eval (Alike.respects hmimics) halike
      (mem_eval_iff_exists_run.mpr ⟨fuel, hrun⟩)
    obtain ⟨fuel', hrun'⟩ := mem_eval_iff_exists_run.mp hend
    exact ⟨fuel', tl', hrun', hreports halike'⟩
  · rintro ⟨fuel, tl', hrun, rfl⟩
    obtain ⟨tl, halike', hend⟩ := StateTransition.tr_eval (Alike.respects_flip hmimics) halike
      (mem_eval_iff_exists_run.mpr ⟨fuel, hrun⟩)
    obtain ⟨fuel', hrun'⟩ := mem_eval_iff_exists_run.mp hend
    exact ⟨fuel', tl, hrun', (hreports halike').symm⟩

/-! ## The result -/

namespace Launch

/-- Siblings never disturb each other. The host of each role is made once, in the order of the
roles, and the launch returns the reports that the roles give alone, each on a clock that starts with
it. Only a role whose own host breaks down is lost. -/
theorem siblings_independent (l : Launch) (host : Role → Surroundings σ π) (w : Fleet σ) :
    (∀ {τ η : Type} (make : Role → StateM τ η),
      l.muster make = l.roles.mapM fun r => return (r, l.startTime r, ← make r)) ∧
    (∀ r, l.startTime r = if r.isCreator then 0
      else l.cancellation.elim l.settings.stagger (min l.settings.stagger)) ∧
    (∀ rs, l.Returns host w rs ↔
      List.Forall₂ (fun r report => l.ReportsAlone host w r report ∨
        l.PanicsAlone host w r ∧ report = .lost r (.taskFailed r)) l.roles rs) ∧
    (∀ rs, l.Returns host w rs → rs.map Report.role = l.roles) ∧
    ∀ r report, l.ReportsAlone host w r report →
      ¬ l.PanicsAlone host w r ∧ report ≠ .lost r (.taskFailed r) :=
  ⟨muster_eq, startTime_eq, returns_iff l host w, fun _ h => h.roles, fun _ _ h =>
    ⟨h.not_panics.1, h.not_panics.2.1⟩⟩

/-- Two roles that send nothing but the last command. -/
def duo : Launch where
  settings := { Settings.standard with stagger := 0 }
  session := ⟨""⟩
  sceneRoles := 2
  pool := .ofList []
  plans := [(⟨0⟩, []), (⟨1⟩, [])]
  cancellation := none

/-- The host of role 1 breaks down when the role joins. -/
def duoHosts : Fleet Script.Host where
  states r := .ofScript ⟨if r.isCreator then [] else [⟨0, none⟩], [], [], [], true, none⟩
  board := none

theorem siblings_independent_duo : ∃ report, report.outcome = .completed ∧
    duo.Returns (fun _ => Script.surroundings .closed) duoHosts [report, .lost ⟨1⟩ (.taskFailed ⟨1⟩)] ∧
      duo.ReportsAlone (fun _ => Script.surroundings .closed) duoHosts ⟨0⟩ report ∧
        duo.PanicsAlone (fun _ => Script.surroundings .closed) duoHosts ⟨1⟩ := by
  have hreturns : duo.Returns (fun _ => Script.surroundings .closed) duoHosts
      [⟨⟨0⟩, .completed, [.joining, .awaitingBegin, .active, .awaitingEnd, .terminated .completed],
        1, 1, ⟨0⟩, none⟩, .lost ⟨1⟩ (.taskFailed ⟨1⟩)] := ⟨40, _, rfl, by decide⟩
  obtain ⟨-, -, hiff, -, hreports⟩ :=
    siblings_independent duo (fun _ => Script.surroundings .closed) duoHosts
  have hroles : duo.roles = [⟨0⟩, ⟨1⟩] := rfl
  have halone := (hiff _).mp hreturns
  rw [hroles, List.forall₂_cons, List.forall₂_cons] at halone
  obtain ⟨hfirst, hsecond, -⟩ := halone
  refine ⟨_, rfl, hreturns, hfirst.resolve_right fun h => absurd h.2 (by decide), ?_⟩
  rcases hsecond with hreport | hpanics
  · exact absurd rfl (hreports _ _ hreport).2
  · exact hpanics.1

end Launch

end Labyrinth

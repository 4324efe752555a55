import Labyrinth.Proofs.Coordinator.Lifecycle
import Labyrinth.Proofs.Launch.Roster
import Labyrinth.Proofs.Launch.Stranding

/-!
# Curfews

With a time limit no session goes on for long after the last role can have joined it. So no role is
told for long that its session is running, and every launch comes to its end.
-/

namespace Labyrinth

open Coordinator Engine Timeline StateTransition Room

namespace Venture

variable {V : Venture} {logs : Nat → List Exchange} {tl : Room} {t : Track World.Pending}
  {i time order begun limit : Nat} {loop : Retry} {s : Status} {c : Coordinator}

theorem exists_joining_of_request (asked : c.request = some .join) :
    ∃ loop, c.phase = .joining loop .answer := by
  unfold Coordinator.request at asked
  split at asked <;> cases asked
  exact ⟨_, ‹_›⟩

variable (hV : V.launch.Bounded)

include hV

theorem Chronicle.begunAt_le (h : V.Chronicle logs tl)
    (hbegun : tl.world.bind (·.begunAt) = some begun) : begun ≤ V.joinedBy := by
  induction h with
  | start => cases hbegun
  | goOn h _ stride ih =>
    obtain ⟨track, waiting, first, hears, history, asks, changed⟩ := stride
    have hin := h.inTime hV track waiting
    rw [changed.world] at hbegun
    rcases asks.begunAt hbegun with hbegun | ⟨asked, rfl⟩
    · rcases hears.begunAt hbegun with hbegun | ⟨⟨p, rfl⟩, rfl⟩
      · exact ih hbegun
      · obtain ⟨-, -, -, asked⟩ := (h.lived track).of_settle waiting
        obtain ⟨loop, hphase⟩ := exists_joining_of_request asked
        rw [hphase] at hin
        exact hin.2.2
    · obtain ⟨loop, hphase⟩ := exists_joining_of_request asked
      have hin' := hin.leads hV (h.leads track waiting hears) (isOver_of_request asked)
        (Nat.le_add_right _ _)
      rw [hphase] at hin'
      exact hin'.2.2

variable (hlimit : V.limit = some limit)

include hlimit

theorem Chronicle.lt_of_running (h : V.Chronicle logs tl) (ht : tl.tracks[i]? = some t)
    (hstate : t.state = .waiting time order (.event (.status (.ok s)))) (hrun : s.isRunning) :
    time < V.joinedBy + limit := by
  induction h generalizing i t with
  | start =>
    obtain rfl := track_start ht
    cases hstate
  | goOn h hstep stride ih =>
    have h' := h.goOn hstep stride
    obtain ⟨track, waiting, first, hears, history, asks, changed⟩ := stride
    rcases changed.getElem?_eq_some ht with ⟨rfl, rfl⟩ | ⟨-, ht⟩
    · dsimp only at hstate
      subst hstate
      cases asks with
      | served asked serves =>
        cases serves with
        | status s₀ =>
          rw [show V.engine.options.timeLimit = some limit from hlimit] at hrun
          obtain ⟨begun, hbegun, hlt⟩ := Session.exists_begunAt_of_isRunning hrun
          have hle : begun ≤ V.joinedBy := by
            refine h'.begunAt_le hV ?_
            rw [changed.world]
            exact hbegun
          exact Nat.lt_of_lt_of_le hlt (Nat.add_le_add_right hle limit)
    · exact ih ht hstate

theorem Chronicle.curfew (h : V.Chronicle logs tl) {due : Due World.Pending}
    (ht : tl.tracks[i]? = some t) (hphase : t.coordinator.phase = .awaitingEnd loop .pause)
    (hstate : t.state = .waiting time order due) :
    time ≤ V.joinedBy + limit + V.settings.ending.interval := by
  induction h generalizing i t time order loop due with
  | start =>
    obtain rfl := track_start ht
    cases hphase
  | goOn h _ stride ih =>
    obtain ⟨track, waiting, first, hears, history, asks, changed⟩ := stride
    rcases changed.getElem?_eq_some ht with ⟨rfl, rfl⟩ | ⟨-, ht⟩
    · dsimp only at hphase hstate
      subst hstate
      obtain ⟨-, ⟨s, rfl, hrun⟩, hpause⟩ :=
        h.of_endPause track waiting hears history asks hphase
      have hlt := h.lt_of_running hV hlimit track waiting hrun
      exact Nat.le_trans hpause (Nat.add_le_add_right (Nat.le_of_lt hlt) _)
    · exact ih ht hphase hstate

theorem exists_end_of_limit : ∃ tl, tl ∈ eval V.step V.start := by
  have hwalked : V.walkedBy ≤ V.walkedBy + limit + V.settings.ending.interval := by omega
  refine exists_end hV hwalked fun tl hreach t ht loop time order due hphase hstate => ?_
  obtain ⟨logs, h⟩ := exists_chronicle hreach
  obtain ⟨i, hi⟩ := List.getElem?_of_mem ht
  have hle := h.curfew hV hlimit hi hphase hstate
  have hjoined := joinedBy_le_begunBy (V := V)
  have hbegun := begunBy_le_walkedBy (V := V)
  omega

end Venture

theorem Launch.reports_of_limit {l : Launch} (hl : l.Bounded) (grid : Grid) (start finish : Cell)
    {options : Engine.Options} {limit : Nat} (hlimit : options.timeLimit = some limit)
    (board : Option Board) (network : Network) :
    ∃ fuel tl, l.run (l.mazeWorld grid start finish options board network) fuel = some tl ∧
      tl.reports.map Report.role = l.roles ∧
      ∀ report ∈ tl.reports, report.stages.getLast? = some (.terminated report.outcome) := by
  let V := l.mazeVenture grid start finish options network board.isSome
  obtain ⟨fuel, tl, logs, tl', hrun, h, htracks, hended⟩ :=
    l.exists_run_of_eval grid start finish options board network (V.exists_end_of_limit hl hlimit)
  have hreported : ∀ t ∈ tl.tracks, ∃ report, t.report? = some report ∧
      report.role = t.coordinator.brief.role ∧
      report.stages.getLast? = some (.terminated report.outcome) := by
    intro t ht
    obtain ⟨report, hstate⟩ := hended t ht
    obtain ⟨_, _, _, history, hreport⟩ := h.history_of_ended (htracks ▸ ht) hstate
    obtain ⟨_, -, -, hstages⟩ := history.exists_stages hreport
    refine ⟨report, by rw [Track.report?, hstate], (eq_of_report? hreport).1, ?_⟩
    rw [hstages, List.getLast?_concat]
  refine ⟨fuel, tl, hrun, ?roles, fun report hreport => ?stages⟩
  case roles =>
    have hroles : ∀ t ∈ tl.tracks,
        t.report?.map Report.role = some t.coordinator.brief.role := by
      intro t ht
      obtain ⟨report, hsome, hrole, -⟩ := hreported t ht
      rw [hsome, Option.map_some, hrole]
    rw [Timeline.reports, List.map_filterMap, List.filterMap_congr hroles, List.filterMap_eq_map',
      ← htracks]
    exact h.roles
  case stages =>
    obtain ⟨t, ht, hsome⟩ := List.mem_filterMap.mp hreport
    obtain ⟨report', hsome', -, hlast⟩ := hreported t ht
    obtain rfl := Option.some.inj (hsome.symm.trans hsome')
    exact hlast

end Labyrinth

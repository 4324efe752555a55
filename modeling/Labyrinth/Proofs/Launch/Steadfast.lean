import Labyrinth.Proofs.Launch.Gathering
import Labyrinth.Proofs.Launch.Stranding

/-!
# Steadfast roles

A role that waits for its session until all roles can be there ends the session, if it has a plan.
So a launch with such a role strands nobody.
-/

namespace Labyrinth

open Coordinator Engine Timeline StateTransition Room

/-- The role does not give up its wait for the session before all roles can be there, if there are so
many endpoints to probe. -/
def Launch.Settings.Awaits (s : Settings) (latency endpoints : Nat) (r : Role) : Prop :=
  ∀ d ∈ s.coordinator.beginning.deadline,
    s.gatheredBy latency endpoints ≤ s.arrival latency r + d

/-- A role with a plan that waits until all roles can be there. -/
structure Launch.Steadfast (l : Launch) (latency : Nat) (r : Role) : Prop where
  role : r.number < l.settings.roles
  plan : (l.plans.lookup r).isSome
  awaits : l.settings.Awaits latency l.pool.size r

namespace Venture

variable {V : Venture} {r : Role} {logs : Nat → List Exchange} {tl : Room}
  (hV : V.launch.Bounded) (furnished : V.launch.Furnished) (steadfast : V.launch.Steadfast V.latency r)

include hV furnished steadfast

theorem Chronicle.exists_saysBegun (h : V.Chronicle logs tl)
    (hbegun : (tl.world.bind (·.begunAt)).isSome)
    (houtwaited : Outwaited (V.brief r) (logs r.number)) : ∃ e ∈ logs r.number, e.saysBegun := by
  rcases houtwaited with hsaid | ⟨q, hq, hadmission, e, he, hsaid, d, hd, hlate⟩
  · exact hsaid
  · obtain ⟨begun, hbegun⟩ := Option.isSome_iff_exists.mp hbegun
    have hgathering := h.gathering hV furnished
    have hstays : V.gatheredBy ≤ V.arrival r + d := steadfast.awaits d hd
    have harrival : V.arrival r ≤ q.answeredAt := hgathering.admissions r.number q hq hadmission
    have hearlier : e.answeredAt ≤ begun := ((h.accounts r).unbegun e he hsaid).2 begun hbegun
    have hgathered : begun ≤ V.gatheredBy := hgathering.begun begun hbegun
    omega

theorem Chronicle.ended_of_gone (hending : V.settings.ending.deadline = none)
    (hplan : (V.brief r).plan ≠ some []) (h : V.Chronicle logs tl) {t : Track World.Pending}
    (ht : tl.tracks[r.number]? = some t) {report : Report} (hstate : t.state = .ended report)
    (hbegun : (tl.world.bind (·.begunAt)).isSome) : tl.world.any (·.ended) := by
  have hvouched := h.vouched r
  have hsaid := h.exists_saysBegun hV furnished steadfast hbegun
  have haccounts := h.accounts r
  obtain ⟨q, hq, hadmission⟩ := h.exists_admission furnished.scene hbegun steadfast.role
  have hlived := h.lived ht
  generalize logs r.number = log at *
  cases hlived with
  | fresh | told | creating => cases hstate
  | ended history reported =>
    rw [show V.cancellation = none from hV.cancellation] at history
    obtain ⟨o, hended⟩ := Exists.intro _ (history.ended reported)
    cases hended with
    | cancelled hreached => cases hreached
    | refused _ _ hrefused =>
      exact absurd (hrefused q hq).2 (Exchange.not_isFailure_of_isAdmission hadmission)
    | broken e last hfailure inside =>
      exact absurd (haccounts.failures e (List.mem_of_getLast? last) hfailure) inside
    | outlived hdeadline =>
      rw [show (V.brief r).settings.ending.deadline = none from hending] at hdeadline
      cases hdeadline
    | stopped e last hstopped =>
      have houtwaited := history.outwaited reported last
        (Exchange.not_isFailure_of_saysStopped hstopped)
      obtain ⟨before, hlog⟩ := List.getLast?_eq_some_iff.mp last
      exact hvouched.stopped before e [] hlog hstopped (hlog ▸ hsaid houtwaited)
    | completed e last hstopped _ finished =>
      obtain ⟨plan, hsome⟩ := Option.isSome_iff_exists.mp steadfast.plan
      rw [← List.append_nil log] at hvouched
      exact hvouched.ended finished hsome fun heq => hplan (heq ▸ hsome)

theorem Chronicle.not_deserted (hending : V.settings.ending.deadline = none)
    (hplan : (V.brief r).plan ≠ some []) (h : V.Chronicle logs tl) :
    ¬ Deserted tl.world tl.tracks := by
  intro hd
  obtain ⟨s, hs, hrun⟩ := hd.running
  obtain ⟨hbegun, hnot⟩ : s.begunAt.isSome ∧ s.ended = false := by
    simpa [Session.isRunning] using hrun
  have ht := List.getElem?_eq_getElem (h.length ▸ steadfast.role : r.number < tl.tracks.length)
  obtain ⟨report, hstate⟩ := hd.gone _ (List.mem_of_getElem? ht) (h.brief ht ▸ steadfast.plan)
  have hended := h.ended_of_gone hV furnished steadfast hending hplan ht hstate (hs ▸ hbegun)
  rw [hs, Option.any_some, hnot] at hended
  cases hended

end Venture

/-- A launch that waits for the end without a deadline terminates if it has a steadfast role. -/
theorem Launch.terminates_of_steadfast {l : Launch} {r : Role}
    (hending : l.settings.coordinator.ending.deadline = none) (grid : Grid) (start finish : Cell)
    {options : Engine.Options} (hlimit : options.timeLimit = none) (board : Option Board)
    (network : Network) (hl : l.Bounded) (hplans : ∀ r, l.plans.lookup r ≠ some [])
    (furnished : l.Furnished) (steadfast : l.Steadfast options.creationLatency r) :
    l.Terminates (l.mazeWorld grid start finish options board network) := by
  refine (terminates_iff_not_strands hending grid start finish hlimit board network hl hplans).mpr ?_
  rintro ⟨tl, hreach, hstranded⟩
  let V := l.mazeVenture grid start finish options network board.isSome
  have hmirrors := l.mirrors_mazeWorld grid start finish options board network
  obtain ⟨tl', mirrors, hreach'⟩ := tr_reaches V.mirrors_respects hmirrors hreach
  obtain ⟨logs, h⟩ := Venture.exists_chronicle hreach'
  exact Venture.Chronicle.not_deserted (V := V) hl furnished steadfast hending (hplans r) h
    (mirrors.stranded_iff.mp hstranded).toDeserted

end Labyrinth

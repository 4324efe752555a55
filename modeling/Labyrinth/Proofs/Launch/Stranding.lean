import Labyrinth.Proofs.Launch.Horizon
import Labyrinth.Proofs.Launch.Testimony

/-!
# Stranded roles

The wait for the end of a session has no deadline of its own. A role is stranded in it if all roles
that could quit have gone while the session is running. Nothing else keeps a launch from its end.
-/

namespace Labyrinth

open Coordinator Engine Timeline StateTransition Room

namespace Timeline

variable {π : Type}

/-- The session is running, and no role is left that would end it. -/
structure Deserted (session? : Option Session) (tracks : List (Track π)) : Prop where
  running : ∃ s, session? = some s ∧ s.isRunning
  gone : ∀ t ∈ tracks, t.coordinator.brief.plan.isSome → ∃ report, t.state = .ended report

/-- A role waits for the end of a session that no one will end. -/
structure Stranded (session? : Option Session) (tracks : List (Track π)) : Prop
    extends Deserted session? tracks where
  left : ∃ t ∈ tracks, ∃ loop, t.coordinator.phase = .awaitingEnd loop .pause

end Timeline

namespace Venture

variable {V : Venture} {logs logs' : Nat → List Exchange} {tl tl' : Room} {t : Track World.Pending}
  {i time order : Nat} {loop : Retry} {s : Status}

/-! ## Deserted sessions -/

theorem Stride.deserted (hlimit : V.limit = none) (h : V.Chronicle logs tl)
    (stride : V.Stride logs tl logs' tl') (hd : Deserted tl.world tl.tracks) :
    Deserted tl'.world tl'.tracks := by
  obtain ⟨track, waiting, first, hears, history, asks, changed⟩ := stride
  rename_i i time order t due event _ _ _ _ state
  have hplan : (V.brief ⟨i⟩).plan = none := by
    rw [← h.brief track, ← Option.not_isSome_iff_eq_none]
    intro hsome
    obtain ⟨report, hstate⟩ := hd.gone t (List.mem_of_getElem? track) hsome
    rw [waiting] at hstate
    cases hstate
  constructor
  case running =>
    have hrun : Session.RunsAt V.limit time tl.world :=
      hlimit ▸ Session.runsAt_none.mpr hd.running
    have hrun' := asks.runsAt (history.not_send_of_idle hplan) (Nat.le_refl time) (hears.runsAt hrun)
    rw [hlimit] at hrun'
    exact changed.world ▸ Session.runsAt_none.mp hrun'
  case gone =>
    intro u hu hsome
    obtain ⟨j, hj⟩ := List.getElem?_of_mem hu
    rcases changed.getElem?_eq_some hj with ⟨rfl, rfl⟩ | ⟨-, hj⟩
    · dsimp only at hsome
      rw [history.stands.brief, hplan] at hsome
      cases hsome
    · exact hd.gone u (List.mem_of_getElem? hj) hsome

section Late

variable (hV : V.launch.Bounded) (hplans : ∀ r, (V.brief r).plan ≠ some [])

include hV hplans

theorem Chronicle.deserted (h : V.Chronicle logs tl) (hlate : V.walkedBy < tl.now)
    (hrun : ∃ s, tl.world = some s ∧ s.isRunning) : Deserted tl.world tl.tracks := by
  refine ⟨hrun, fun t ht hsome => ?_⟩
  obtain ⟨i, hi⟩ := List.getElem?_of_mem ht
  cases hstate : t.state with
  | ended report => exact ⟨report, rfl⟩
  | waiting time order due =>
    have hnow := (h.lived hi).le_time hstate
    have hin := h.inTime hV hi hstate
    exfalso
    by_cases hend : ∃ loop wait, t.coordinator.phase = .awaitingEnd loop wait
    · obtain ⟨loop, wait, hphase⟩ := hend
      obtain ⟨plan, hplan⟩ := Option.isSome_iff_exists.mp hsome
      rw [h.brief hi] at hplan
      have hended := h.ended_of_awaitingEnd hi hphase hplan fun heq => hplans _ (heq ▸ hplan)
      obtain ⟨s, hs, hrun⟩ := hrun
      rw [hs] at hended
      simp [Session.isRunning, show s.ended = true from hended] at hrun
    · have hle := hin.le_walkedBy fun loop wait hphase => hend ⟨loop, wait, hphase⟩
      omega

theorem Chronicle.late (hlimit : V.limit = none) (h : V.Chronicle logs tl) (ht : tl.tracks[i]? = some t)
    (hphase : t.coordinator.phase = .awaitingEnd loop .answer)
    (hstate : t.state = .waiting time order (.event (.status (.ok s)))) (hrun : s.isRunning) :
    time ≤ V.walkedBy ∨ Deserted tl.world tl.tracks := by
  induction h generalizing i t time order loop with
  | start =>
    obtain rfl := track_start ht
    cases hphase
  | goOn h hstep stride ih =>
    have h' := h.goOn hstep stride
    have hdeserted := stride.deserted hlimit h
    obtain ⟨track, waiting, first, hears, history, asks, changed⟩ := stride
    rcases changed.getElem?_eq_some ht with ⟨rfl, rfl⟩ | ⟨-, ht⟩
    · dsimp only at hphase hstate
      subst hstate
      cases asks with
      | served asked serves =>
        cases serves with
        | status s₀ =>
          refine or_iff_not_imp_left.mpr fun hlate => h'.deserted hV hplans ?_ ⟨_, changed.world, hrun⟩
          rw [changed.now]
          exact Nat.lt_of_not_le hlate
    · exact (ih ht hphase hstate).imp_right hdeserted

theorem Chronicle.pause_le (hlimit : V.limit = none)
    (hnot : ∀ tl, Reaches V.step V.start tl → ¬ Stranded tl.world tl.tracks)
    (h : V.Chronicle logs tl) (ht : tl.tracks[i]? = some t)
    (hphase : t.coordinator.phase = .awaitingEnd loop .pause) {due : Due World.Pending}
    (hstate : t.state = .waiting time order due) :
    time ≤ V.walkedBy + V.settings.ending.interval := by
  induction h generalizing i t time order loop due with
  | start =>
    obtain rfl := track_start ht
    cases hphase
  | goOn h hstep stride ih =>
    have hreaches := (h.goOn hstep stride).reaches
    have hdeserted := stride.deserted hlimit h
    obtain ⟨track, waiting, first, hears, history, asks, changed⟩ := stride
    rcases changed.getElem?_eq_some ht with ⟨rfl, rfl⟩ | ⟨-, ht⟩
    · dsimp only at hphase hstate
      subst hstate
      obtain ⟨hbefore, ⟨s, rfl, hrun⟩, hpause⟩ :=
        h.of_endPause track waiting hears history asks hphase
      rcases h.late hV hplans hlimit track hbefore waiting hrun with hle | hd
      · exact Nat.le_trans hpause (Nat.add_le_add_right hle _)
      · refine absurd ⟨hdeserted hd, ?_⟩ (hnot _ hreaches)
        exact ⟨_, List.mem_of_getElem? ht, loop, hphase⟩
    · exact ih ht hphase hstate

theorem exists_end_of_not_stranded (hlimit : V.limit = none)
    (hnot : ∀ tl, Reaches V.step V.start tl → ¬ Stranded tl.world tl.tracks) :
    ∃ tl, tl ∈ eval V.step V.start := by
  refine exists_end hV (Nat.le_add_right _ V.settings.ending.interval) ?_
  intro tl hreach t ht loop time order due hphase hstate
  obtain ⟨logs, h⟩ := exists_chronicle hreach
  obtain ⟨i, hi⟩ := List.getElem?_of_mem ht
  exact h.pause_le hV hplans hlimit hnot hi hphase hstate

end Late

/-! ## Waiting for ever -/

/-- The role waits for the end, and has not been told of it. -/
inductive Lingers : Track World.Pending → Prop where
  | pause (c : Coordinator) (loop : Retry) (phase : c.phase = .awaitingEnd loop .pause)
      (time order : Nat) : Lingers ⟨c, .waiting time order (.event (.woken true))⟩
  | answer (c : Coordinator) (loop : Retry) (phase : c.phase = .awaitingEnd loop .answer)
      (time order : Nat) (s : Status) (running : s.isRunning) :
      Lingers ⟨c, .waiting time order (.event (.status (.ok s)))⟩

section Forever

variable {c : Coordinator} {log log' : List Exchange} {session? session?' : Option Session}
  {state : State World.Pending} (hcancellation : V.launch.cancellation = none)

theorem Asks.lingers_of_answer (asks : V.Asks c time log session? state log' session?')
    (hphase : c.phase = .awaitingEnd loop .answer)
    (hinside : (World.agent? session? c.brief.role).isSome)
    (hrun : Session.RunsAt V.limit time session?) : Lingers ⟨c, state⟩ := by
  cases asks with
  | served asked serves =>
    rw [Coordinator.request, hphase] at asked
    cases asked
    cases serves with
    | status s => exact .answer c loop hphase time _ _ (Session.runsAt_some.mp hrun)
    | statusFailed _ out =>
      rw [out] at hinside
      cases hinside
  | ended reported =>
    rw [Coordinator.report?, hphase] at reported
    cases reported
  | naps asked | probes asked | creates asked =>
    rw [Coordinator.request, hphase] at asked
    cases asked

include hcancellation

theorem Asks.lingers_of_pause (asks : V.Asks c time log session? state log' session?')
    (hphase : c.phase = .awaitingEnd loop .pause) : Lingers ⟨c, state⟩ := by
  cases asks with
  | naps =>
    rw [show V.cancellation = none from hcancellation]
    exact .pause c loop hphase _ _
  | ended reported =>
    rw [Coordinator.report?, hphase] at reported
    cases reported
  | served asked serves =>
    rw [Coordinator.request, hphase] at asked
    cases asked
    cases serves
  | probes asked | creates asked =>
    rw [Coordinator.request, hphase] at asked
    cases asked

theorem Chronicle.lingers (h : V.Chronicle logs tl) (ht : tl.tracks[i]? = some t)
    (hphase : t.coordinator.phase = .awaitingEnd loop .pause) : Lingers t := by
  have hlived := h.lived ht
  generalize logs i = log at hlived
  cases hlived with
  | fresh => cases hphase
  | told history asked answers =>
    rw [Coordinator.request, hphase] at asked
    cases asked
    cases answers
    rw [show V.cancellation = none from hcancellation]
    exact .pause _ loop hphase _ _
  | creating history asked =>
    rw [Coordinator.request, hphase] at asked
    cases asked
  | ended history reported =>
    rw [Coordinator.report?, hphase] at reported
    cases reported

theorem phase_next_pause (time : Nat) (hphase : c.phase = .awaitingEnd loop .pause) :
    (V.next c time (.woken true)).phase =
      .awaitingEnd { loop with attempts := loop.attempts + 1 } .answer := by
  rw [next, advance_awaitingEnd_pause hphase, moment, show V.cancellation = none from hcancellation]
  rfl

omit hcancellation in
theorem phase_next_running (hphase : c.phase = .awaitingEnd loop .answer)
    (hdeadline : loop.policy.deadline = none) (hrun : s.isRunning) :
    (V.next c time (.status (.ok s))).phase = .awaitingEnd loop .pause := by
  have hlate : loop.isLate time = false := by rw [Retry.isLate, hdeadline]
  rw [next, advance_awaitingEnd_answer hphase, moment, hrun]
  simp only [Bool.not_true, Retry.pollAnswer, Retry.answered, hlate]
  rfl

variable (hending : V.settings.ending.deadline = none) (hlimit : V.limit = none)

include hending hlimit

theorem Stride.lingers (h : V.Chronicle logs tl) (stride : V.Stride logs tl logs' tl')
    (hd : Deserted tl.world tl.tracks) (ht : tl.tracks[i]? = some t) (lingers : Lingers t) :
    ∃ t', tl'.tracks[i]? = some t' ∧ Lingers t' := by
  obtain ⟨track, waiting, first, hears, history, asks, changed⟩ := stride
  rename_i j time order u due event log _ session? _ state
  by_cases hij : i = j
  · subst hij
    obtain rfl : t = u := Option.some.inj (ht.symm.trans track)
    refine ⟨⟨V.next t.coordinator time event, state⟩, ?_, ?_⟩
    · rw [changed.tracks, List.getElem?_set_self (List.getElem?_eq_some_iff.mp track).1]
    cases lingers with
    | pause c loop phase =>
      cases waiting
      cases hears
      have hphase := phase_next_pause hcancellation time phase
      obtain ⟨admitted, -, -⟩ : Admitted (logs i) ∧ Finished _ _ ∧ _ :=
        history.stands.behind_of_phase hphase
      obtain ⟨q, hq, -, hadmission⟩ := admitted.exists_admission
      refine asks.lingers_of_answer hphase ?_ (hlimit ▸ Session.runsAt_none.mpr hd.running)
      rw [history.stands.brief]
      exact (h.vouched ⟨i⟩).admitted q hq hadmission
    | answer c loop phase _ _ s running =>
      cases waiting
      cases hears
      obtain ⟨_, _, _, -, before⟩ := h.history_of_awaitingEnd track phase
      obtain ⟨-, -, hpolicy⟩ : Admitted _ ∧ Finished _ _ ∧ loop.policy = V.settings.ending :=
        before.stands.behind_of_phase phase
      exact asks.lingers_of_pause hcancellation
        (phase_next_running phase (hpolicy ▸ hending) running)
  · refine ⟨t, ?_, lingers⟩
    rw [changed.tracks, List.getElem?_set_ne (Ne.symm hij)]
    exact ht

theorem not_ended_of_stranded (hreach : Reaches V.step V.start tl)
    (hstranded : Stranded tl.world tl.tracks) : ¬ ∃ tl, tl ∈ eval V.step V.start := by
  rintro ⟨last, hlast⟩
  obtain ⟨t, ht, loop, hphase⟩ := hstranded.left
  obtain ⟨i, hi⟩ := List.getElem?_of_mem ht
  obtain ⟨logs, h⟩ := exists_chronicle hreach
  obtain ⟨hreach', hend⟩ := mem_eval.mp hlast
  obtain ⟨-, -, t', ht', lingers⟩ : (∃ logs, V.Chronicle logs last) ∧
      Deserted last.world last.tracks ∧ ∃ t', last.tracks[i]? = some t' ∧ Lingers t' := by
    refine invariant_of_reaches (P := fun tl => (∃ logs, V.Chronicle logs tl) ∧
      Deserted tl.world tl.tracks ∧ ∃ t', tl.tracks[i]? = some t' ∧ Lingers t')
      (reaches_end hreach hreach' hend) ?_
      ⟨⟨logs, h⟩, hstranded.toDeserted, t, hi, h.lingers hcancellation hi hphase⟩
    rintro tl tl' ⟨⟨logs, h⟩, hd, t, ht, lingers⟩ hstep
    obtain ⟨logs', stride⟩ := h.exists_stride hstep
    exact ⟨⟨logs', h.goOn hstep stride⟩, stride.deserted hlimit h hd,
      stride.lingers hcancellation hending hlimit h hd ht lingers⟩
  obtain ⟨report, hended⟩ := ended_of_step_eq_none hend (List.mem_of_getElem? ht')
  cases lingers <;> cases hended

end Forever

/-! ## What is left of the tracks -/

theorem Chronicle.roles (h : V.Chronicle logs tl) :
    tl.tracks.map (·.coordinator.brief.role) = V.launch.roles := by
  refine List.ext_getElem (by simp [h.length, Launch.roles]) fun i hi _ => ?_
  rw [List.length_map] at hi
  rw [List.getElem_map, h.brief (List.getElem?_eq_getElem hi)]
  simp [Launch.roles, Venture.brief, Launch.brief]

theorem Chronicle.history_of_ended {report : Report} (h : V.Chronicle logs tl) (ht : t ∈ tl.tracks)
    (hstate : t.state = .ended report) :
    ∃ r log since, History (V.brief r) V.cancellation log t.coordinator since ∧
      t.coordinator.report? = some report := by
  obtain ⟨i, hi⟩ := List.getElem?_of_mem ht
  have hlived := h.lived hi
  generalize logs i = log at hlived
  cases hlived with
  | fresh | told | creating => cases hstate
  | ended history reported =>
    cases hstate
    exact ⟨⟨i⟩, log, _, history, reported⟩

theorem Chronicle.reported {report : Report} (h : V.Chronicle logs tl) (ht : t ∈ tl.tracks)
    (hstate : t.state = .ended report) : t.coordinator.report? = some report := by
  obtain ⟨_, _, _, -, hreport⟩ := h.history_of_ended ht hstate
  exact hreport

theorem Mirrors.stranded_iff {world : Timeline World World.Pending} (h : V.Mirrors world tl) :
    Stranded (world.world.engine.session? V.launch.session) world.tracks ↔
      Stranded tl.world tl.tracks := by
  have htracks : tl.tracks = world.tracks := congrArg Timeline.tracks h.same
  rw [h.world.session, htracks]

end Venture

namespace Launch

/-! ## Launches in a maze -/

/-- All coordinators of the launch come to their reports. -/
def Terminates (l : Launch) (w : World) : Prop :=
  ∃ fuel tl, l.run w fuel = some tl ∧ tl.tracks.map (·.coordinator.brief.role) = l.roles ∧
    ∀ t ∈ tl.tracks, ∃ report, t.state = .ended report ∧ t.coordinator.report? = some report

/-- At some time a role of the launch waits for the end of a session that no one will end. -/
def Strands (l : Launch) (w : World) : Prop :=
  ∃ tl, Reaches (Timeline.step World.surroundings l.cancellation) (l.timeline w.board.isSome w) tl ∧
    Stranded (tl.world.engine.session? l.session) tl.tracks

section Maze

variable {l : Launch} (hending : l.settings.coordinator.ending.deadline = none) (grid : Grid)
  (start finish : Cell) {options : Engine.Options} (hlimit : options.timeLimit = none)
  (board : Option Board) (network : Network)

include hending hlimit

theorem run_eq_none_of_strands (hcancellation : l.cancellation = none)
    (h : l.Strands (l.mazeWorld grid start finish options board network)) (fuel : Nat) :
    l.run (l.mazeWorld grid start finish options board network) fuel = none := by
  let V := l.mazeVenture grid start finish options network board.isSome
  have hmirrors := l.mirrors_mazeWorld grid start finish options board network
  obtain ⟨tl, hreach, hstranded⟩ := h
  obtain ⟨tl', mirrors, hreach'⟩ := tr_reaches V.mirrors_respects hmirrors hreach
  refine Option.eq_none_iff_forall_ne_some.mpr fun last hrun => ?_
  obtain ⟨last', -, hlast⟩ :=
    tr_eval V.mirrors_respects hmirrors (mem_eval_iff_exists_run.mpr ⟨fuel, hrun⟩)
  exact Venture.not_ended_of_stranded (V := V) hcancellation hending hlimit hreach'
    (mirrors.stranded_iff.mp hstranded) ⟨last', hlast⟩

/-- A launch that waits for the end without a deadline terminates if it strands no role, and only
then. -/
theorem terminates_iff_not_strands (hl : l.Bounded) (hplans : ∀ r, l.plans.lookup r ≠ some []) :
    l.Terminates (l.mazeWorld grid start finish options board network) ↔
      ¬ l.Strands (l.mazeWorld grid start finish options board network) := by
  constructor
  · rintro ⟨fuel, last, hrun, -⟩ hstrands
    rw [run_eq_none_of_strands hending grid start finish hlimit board network hl.cancellation hstrands]
      at hrun
    cases hrun
  · intro hnot
    let V := l.mazeVenture grid start finish options network board.isSome
    have hmirrors := l.mirrors_mazeWorld grid start finish options board network
    obtain ⟨fuel, tl, logs, tl', hrun, h, htracks, hended⟩ :=
      l.exists_run_of_eval grid start finish options board network <| by
        refine Venture.exists_end_of_not_stranded hl hplans hlimit fun tl' hreach' hstranded => hnot ?_
        obtain ⟨tl, mirrors, hreach⟩ := tr_reaches V.mirrors_respects_flip hmirrors hreach'
        exact ⟨tl, hreach, mirrors.stranded_iff.mpr hstranded⟩
    refine ⟨fuel, tl, hrun, htracks ▸ h.roles, fun t ht => ?_⟩
    obtain ⟨report, hstate⟩ := hended t ht
    exact ⟨report, hstate, h.reported (htracks ▸ ht) hstate⟩

end Maze

end Launch

end Labyrinth

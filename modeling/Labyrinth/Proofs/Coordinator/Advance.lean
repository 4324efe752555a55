import Labyrinth.Coordinator.Basic

/-!
# What a coordinator does with an event

For each phase, what the event for which it waits leads to.
-/

namespace Labyrinth

namespace Coordinator

variable {c : Coordinator} {m : Moment} {limit : Nat} {loop : Retry} {rested : Bool}

theorem advance_fresh (h : c.phase = .fresh) : c.advance m .started = c.start m := by
  obtain ⟨⟩ := c
  cases h
  rfl

theorem advance_probing {endpoint : Endpoint} {rest : List Endpoint} {reachable : Bool}
    (h : c.phase = .probing limit endpoint rest) :
    c.advance m (.probed reachable) = c.probe m limit rest := by
  obtain ⟨⟩ := c
  cases h
  rfl

/-! ## Loops -/

theorem advance_joining_answer {answer : Except JoinError Unit}
    (h : c.phase = .joining loop .answer) :
    c.advance m (.joined answer) = c.joinMove m (loop.answered m.now (joinAnswer answer)) := by
  obtain ⟨⟩ := c
  cases h
  rfl

theorem advance_joining_pause (h : c.phase = .joining loop .pause) :
    c.advance m (.woken rested) = c.joinMove m (loop.woken rested m.cancelled) := by
  obtain ⟨⟩ := c
  cases h
  rfl

theorem advance_awaitingBegin_answer {answer : Except String Status}
    (h : c.phase = .awaitingBegin loop .answer) :
    c.advance m (.status answer) =
      c.beginMove m (loop.answered m.now (Retry.pollAnswer (answer.map Status.hasBegun))) := by
  obtain ⟨⟩ := c
  cases h
  rfl

theorem advance_awaitingBegin_pause (h : c.phase = .awaitingBegin loop .pause) :
    c.advance m (.woken rested) = c.beginMove m (loop.woken rested m.cancelled) := by
  obtain ⟨⟩ := c
  cases h
  rfl

theorem advance_awaitingEnd_answer {status : Status} (h : c.phase = .awaitingEnd loop .answer) :
    c.advance m (.status (.ok status)) =
      (c.notice status).endMove m
        (loop.answered m.now (Retry.pollAnswer (.ok !status.isRunning))) := by
  obtain ⟨⟩ := c
  cases h
  rfl

theorem advance_awaitingEnd_failed {reason : String} (h : c.phase = .awaitingEnd loop .answer) :
    c.advance m (.status (.error reason)) =
      c.endMove m (loop.answered m.now (Retry.pollAnswer (.error reason))) := by
  obtain ⟨⟩ := c
  cases h
  rfl

theorem advance_awaitingEnd_pause (h : c.phase = .awaitingEnd loop .pause) :
    c.advance m (.woken rested) = c.endMove m (loop.woken rested m.cancelled) := by
  obtain ⟨⟩ := c
  cases h
  rfl

/-! ## The plan -/

section Plan

variable {a : Action} {rest : List Action} {reason : String}

theorem advance_sending (h : c.phase = .sending a rest) :
    c.advance m (.sent (.ok ())) = c.commandSent a rest := by
  obtain ⟨⟩ := c
  cases h
  rfl

theorem advance_sending_failed (h : c.phase = .sending a rest) :
    c.advance m (.sent (.error reason)) = c.abort m (.commandSend a.command.token reason) := by
  obtain ⟨⟩ := c
  cases h
  rfl

theorem advance_observing {answer : Option Observation} (h : c.phase = .observing a rest) :
    c.advance m (.observed answer) =
      { c with phase := .publishing (c.snapshotAfter m a answer) rest } := by
  obtain ⟨⟩ := c
  cases h
  rfl

theorem advance_publishing {snapshot : Snapshot} (h : c.phase = .publishing snapshot rest) :
    c.advance m .published = { c with phase := .pacing rest } := by
  obtain ⟨⟩ := c
  cases h
  rfl

theorem advance_pacing (h : c.phase = .pacing rest) :
    c.advance m (.woken true) = { c with phase := .checking rest } := by
  obtain ⟨⟩ := c
  cases h
  rfl

theorem advance_pacing_cut (h : c.phase = .pacing rest) :
    c.advance m (.woken false) = c.cancel m := by
  obtain ⟨⟩ := c
  cases h
  rfl

theorem advance_checking {status : Status} (h : c.phase = .checking rest) :
    c.advance m (.status (.ok status)) = c.checked m rest status := by
  obtain ⟨⟩ := c
  cases h
  rfl

theorem advance_checking_failed (h : c.phase = .checking rest) :
    c.advance m (.status (.error reason)) = c.abort m (.status reason) := by
  obtain ⟨⟩ := c
  cases h
  rfl

theorem advance_quitting (h : c.phase = .quitting) :
    c.advance m (.sent (.ok ())) = { c with commandsSent := c.commandsSent + 1 }.awaitEnd m := by
  obtain ⟨⟩ := c
  cases h
  rfl

theorem advance_quitting_failed (h : c.phase = .quitting) :
    c.advance m (.sent (.error reason)) =
      c.abort m (.commandSend Command.quitToken reason) := by
  obtain ⟨⟩ := c
  cases h
  rfl

end Plan

/-! ## What an event leaves alone -/

/-- A coordinator runs for a brief since a time and has entered some stages. -/
structure Runs (b : Brief) (since : Nat) (stages : List Stage) (c : Coordinator) : Prop where
  brief : c.brief = b
  startedAt : c.startedAt = since
  stages : stages <+: c.stages

section Runs

variable {b : Brief} {since : Nat} {stages : List Stage}

theorem Runs.enter (h : Runs b since stages c) (s : Stage) : Runs b since stages (c.enter s) :=
  ⟨h.brief, h.startedAt, h.stages.trans (List.prefix_append _ _)⟩

theorem Runs.terminate (h : Runs b since stages c) (o : Outcome) (failure : Option MissionError) :
    Runs b since stages (c.terminate m o failure) :=
  ⟨h.brief, h.startedAt, (h.enter (.terminated o)).stages⟩

theorem runs_endMove (h : Runs b since stages c)
    (move : Retry.Move (Retry.Pending String) Unit) : Runs b since stages (c.endMove m move) := by
  unfold endMove
  split
  · exact ⟨h.brief, h.startedAt, h.stages⟩
  · split
    · split
      · exact h.terminate _ _
      · exact h.terminate _ _
    · exact h.terminate _ _
    · exact h.terminate _ _
    · exact h.terminate _ _

theorem runs_awaitEnd (h : Runs b since stages c) : Runs b since stages (c.awaitEnd m) :=
  runs_endMove (h.enter .awaitingEnd) _

theorem runs_proceed (h : Runs b since stages c) (rest : List Action) :
    Runs b since stages (c.proceed rest) := by
  cases rest <;> exact ⟨h.brief, h.startedAt, h.stages⟩

theorem runs_activate (h : Runs b since stages c) : Runs b since stages (c.activate m) := by
  unfold activate
  dsimp only
  split
  · exact runs_awaitEnd (h.enter .active)
  · exact runs_proceed (h.enter .active) _

theorem runs_beginMove (h : Runs b since stages c)
    (move : Retry.Move (Retry.Pending String) Unit) :
    Runs b since stages (c.beginMove m move) := by
  unfold beginMove
  split
  · exact ⟨h.brief, h.startedAt, h.stages⟩
  · split
    · exact runs_activate ⟨h.brief, h.startedAt, h.stages⟩
    · exact runs_activate h
    · exact h.terminate _ _
    · exact h.terminate _ _

theorem runs_awaitBegin (h : Runs b since stages c) : Runs b since stages (c.awaitBegin m) :=
  runs_beginMove (h.enter .awaitingBegin) _

theorem runs_joinMove (h : Runs b since stages c) (move : Retry.Move JoinError Unit) :
    Runs b since stages (c.joinMove m move) := by
  have hattempts : ∀ attempts, Runs b since stages { c with joinAttempts := attempts } :=
    fun _ => ⟨h.brief, h.startedAt, h.stages⟩
  unfold joinMove
  split
  · exact ⟨h.brief, h.startedAt, h.stages⟩
  · exact runs_awaitBegin (hattempts _)
  · exact (hattempts _).terminate _ _
  · exact (hattempts _).terminate _ _
  · exact h.terminate _ _

theorem runs_join (h : Runs b since stages c) : Runs b since stages (c.join m) :=
  runs_joinMove (h.enter .joining) _

theorem runs_checked (h : Runs b since stages c) (rest : List Action) (s : Status) :
    Runs b since stages (c.checked m rest s) := by
  have hnotice : Runs b since stages (c.notice s) := ⟨h.brief, h.startedAt, h.stages⟩
  unfold checked
  dsimp only
  split
  · exact runs_proceed hnotice rest
  · split
    · exact runs_awaitEnd hnotice
    · split
      · exact hnotice.terminate _ _
      · exact hnotice.terminate _ _

theorem runs_probe (h : Runs b since stages c) (rest : List Endpoint) :
    Runs b since stages (c.probe m limit rest) := by
  cases rest with
  | nil => exact runs_join h
  | cons endpoint rest => exact ⟨h.brief, h.startedAt, h.stages⟩

theorem runs_start (h : c.brief = b) : Runs b m.now c.stages (c.start m) := by
  have hruns : Runs b m.now c.stages { c with startedAt := m.now } := ⟨h, rfl, List.prefix_rfl⟩
  unfold start
  dsimp only
  split
  · exact runs_join hruns
  · exact runs_probe (hruns.enter .probing) _

theorem runs_advance (h : Runs b since stages c) (hphase : c.phase ≠ .fresh) (e : Event) :
    Runs b since stages (c.advance m e) := by
  unfold advance
  split
  · exact absurd ‹_› hphase
  · exact runs_probe h _
  · exact runs_joinMove h _
  · exact runs_joinMove h _
  · exact runs_beginMove h _
  · exact runs_beginMove h _
  · exact ⟨h.brief, h.startedAt, h.stages⟩
  · exact h.terminate _ _
  · exact ⟨h.brief, h.startedAt, h.stages⟩
  · exact ⟨h.brief, h.startedAt, h.stages⟩
  · exact ⟨h.brief, h.startedAt, h.stages⟩
  · exact h.terminate _ _
  · exact runs_checked h _ _
  · exact h.terminate _ _
  · exact runs_awaitEnd ⟨h.brief, h.startedAt, h.stages⟩
  · exact h.terminate _ _
  · refine runs_endMove ?_ _
    split
    · exact ⟨h.brief, h.startedAt, h.stages⟩
    · exact h
  · exact runs_endMove h _
  · exact h

theorem advance_of_fresh {e : Event} (hphase : c.phase = .fresh) (he : e ≠ .started) :
    c.advance m e = c := by
  obtain ⟨⟩ := c
  cases hphase
  cases e with
  | started => exact absurd rfl he
  | _ => rfl

end Runs

theorem brief_advance (e : Event) : (c.advance m e).brief = c.brief := by
  by_cases hphase : c.phase = .fresh
  · by_cases he : e = .started
    · rw [he, advance_fresh hphase]
      exact (runs_start rfl).brief
    · rw [advance_of_fresh hphase he]
  · exact (runs_advance ⟨rfl, rfl, List.prefix_rfl⟩ hphase e).brief

/-! ## Nobody goes back to the start -/

theorem endMove_ne_fresh (move : Retry.Move (Retry.Pending String) Unit) :
    (c.endMove m move).phase ≠ .fresh := by
  unfold endMove
  split
  · exact Phase.noConfusion
  · split
    · split <;> exact Phase.noConfusion
    all_goals exact Phase.noConfusion

theorem proceed_ne_fresh (rest : List Action) : (c.proceed rest).phase ≠ .fresh := by
  cases rest <;> exact Phase.noConfusion

theorem activate_ne_fresh : (c.activate m).phase ≠ .fresh := by
  unfold activate
  dsimp only
  split
  · exact endMove_ne_fresh _
  · exact proceed_ne_fresh _

theorem beginMove_ne_fresh (move : Retry.Move (Retry.Pending String) Unit) :
    (c.beginMove m move).phase ≠ .fresh := by
  unfold beginMove
  split
  · exact Phase.noConfusion
  · split
    · exact activate_ne_fresh
    · exact activate_ne_fresh
    all_goals exact Phase.noConfusion

theorem joinMove_ne_fresh (move : Retry.Move JoinError Unit) :
    (c.joinMove m move).phase ≠ .fresh := by
  unfold joinMove
  split
  case h_2 => exact beginMove_ne_fresh _
  all_goals exact Phase.noConfusion

theorem checked_ne_fresh (rest : List Action) (s : Status) :
    (c.checked m rest s).phase ≠ .fresh := by
  unfold checked
  dsimp only
  split
  · exact proceed_ne_fresh rest
  · split
    · exact endMove_ne_fresh _
    · split <;> exact Phase.noConfusion

theorem commandSent_ne_fresh (a : Action) (rest : List Action) :
    (c.commandSent a rest).phase ≠ .fresh := by
  unfold commandSent
  split <;> exact Phase.noConfusion

theorem probe_ne_fresh (rest : List Endpoint) : (c.probe m limit rest).phase ≠ .fresh := by
  cases rest with
  | nil => exact joinMove_ne_fresh _
  | cons endpoint rest => exact Phase.noConfusion

theorem start_ne_fresh : (c.start m).phase ≠ .fresh := by
  unfold start
  dsimp only
  split
  · exact joinMove_ne_fresh _
  · exact probe_ne_fresh _

theorem advance_ne_fresh (h : c.phase ≠ .fresh) (e : Event) : (c.advance m e).phase ≠ .fresh := by
  unfold advance
  split
  · exact absurd ‹_› h
  · exact probe_ne_fresh _
  · exact joinMove_ne_fresh _
  · exact joinMove_ne_fresh _
  · exact beginMove_ne_fresh _
  · exact beginMove_ne_fresh _
  · exact commandSent_ne_fresh _ _
  · exact Phase.noConfusion
  · exact Phase.noConfusion
  · exact Phase.noConfusion
  · exact Phase.noConfusion
  · exact Phase.noConfusion
  · exact checked_ne_fresh _ _
  · exact Phase.noConfusion
  · exact endMove_ne_fresh _
  · exact Phase.noConfusion
  · exact endMove_ne_fresh _
  · exact endMove_ne_fresh _
  · exact h

/-! ## The first stage -/

/-- A coordinator that has started has entered a stage before it ends. -/
def Opened (c : Coordinator) : Prop :=
  c.phase = .fresh ∧ c.stages = [] ∨ ∃ s, (∀ o, s ≠ .terminated o) ∧ [s] <+: c.stages

theorem opened_start (h : c.stages = []) : Opened (c.start m) := by
  have hruns : Runs c.brief m.now [] { c with startedAt := m.now } := ⟨rfl, rfl, by simp⟩
  have hopen : ∀ s, Runs c.brief m.now [s] ({ c with startedAt := m.now }.enter s) := fun s =>
    ⟨rfl, rfl, by simp [enter, h]⟩
  unfold start
  dsimp only
  split
  · exact .inr ⟨.joining, fun _ => Stage.noConfusion, (runs_joinMove (hopen .joining) _).stages⟩
  · exact .inr ⟨.probing, fun _ => Stage.noConfusion, (runs_probe (hopen .probing) _).stages⟩

theorem Opened.advance (h : Opened c) (e : Event) : Opened (c.advance m e) := by
  by_cases hphase : c.phase = .fresh
  · by_cases he : e = .started
    · rcases h with ⟨-, hstages⟩ | ⟨s, hs, hstages⟩
      · rw [he, advance_fresh hphase]
        exact opened_start hstages
      · rw [he, advance_fresh hphase]
        exact .inr ⟨s, hs, hstages.trans (runs_start rfl).stages⟩
    · rwa [advance_of_fresh hphase he]
  · rcases h with ⟨hfresh, -⟩ | ⟨s, hs, hstages⟩
    · exact absurd hfresh hphase
    · exact .inr ⟨s, hs, (runs_advance ⟨rfl, rfl, hstages⟩ hphase e).stages⟩

theorem Opened.report_ne_lost {report : Report} (h : Opened c) (hreport : c.report? = some report)
    (role : Role) (e : MissionError) : report ≠ .lost role e := by
  rintro rfl
  unfold report? at hreport
  split at hreport
  · rename_i hphase
    have hlost := congrArg Report.stages (Option.some.inj hreport)
    rcases h with ⟨hfresh, -⟩ | ⟨s, hs, hstages⟩
    · rw [hfresh] at hphase
      cases hphase
    · rw [show c.stages = [.terminated .aborted] from hlost] at hstages
      exact hs _ (List.cons_prefix_cons.mp hstages).1
  · cases hreport

theorem exists_request (h : c.phase ≠ .fresh) (hreport : c.report? = none) :
    ∃ request, c.request = some request := by
  obtain ⟨brief, phase⟩ := c
  cases phase with
  | fresh => exact absurd rfl h
  | joining loop wait => cases wait <;> exact ⟨_, rfl⟩
  | awaitingBegin loop wait => cases wait <;> exact ⟨_, rfl⟩
  | awaitingEnd loop wait => cases wait <;> exact ⟨_, rfl⟩
  | terminated o elapsed => cases hreport
  | _ => exact ⟨_, rfl⟩

end Coordinator

end Labyrinth

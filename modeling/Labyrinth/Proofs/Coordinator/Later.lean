import Labyrinth.Proofs.Coordinator.Advance

/-!
# Coordinators on a later clock

A coordinator reads spans off the clock and hands on times, but it never judges a time by itself. So
one that runs on a clock that is ahead by a constant does the same, with that constant added to every
time that it keeps.
-/

namespace Labyrinth

variable {T : Nat}

/-! ## Times that are kept -/

def Retry.later (T : Nat) (r : Retry) : Retry := { r with startedAt := T + r.startedAt }

def Retry.Move.later {ε α : Type} (T : Nat) : Retry.Move ε α → Retry.Move ε α
  | .wait r w => .wait (r.later T) w
  | .stop o => .stop o

def Snapshot.later (T : Nat) (s : Snapshot) : Snapshot := { s with updatedAt := T + s.updatedAt }

namespace Coordinator

def Phase.later (T : Nat) : Phase → Phase
  | .joining loop wait => .joining (loop.later T) wait
  | .awaitingBegin loop wait => .awaitingBegin (loop.later T) wait
  | .awaitingEnd loop wait => .awaitingEnd (loop.later T) wait
  | .publishing snapshot rest => .publishing (snapshot.later T) rest
  | p => p

def Request.later (T : Nat) : Request → Request
  | .publish snapshot => .publish (snapshot.later T)
  | request => request

def later (T : Nat) (c : Coordinator) : Coordinator :=
  { c with phase := c.phase.later T, startedAt := T + c.startedAt }

def Moment.later (T : Nat) (m : Moment) : Moment := { m with now := T + m.now }

end Coordinator

/-! ## Loops -/

namespace Retry

variable {ε α : Type} {r : Retry} {now : Nat}

theorem start_later (policy : Policy) (cancelled : Bool) :
    (start policy (T + now) cancelled : Move ε α) = (start policy now cancelled).later T := by
  cases cancelled <;> rfl

theorem answered_later (a : Answer ε α) :
    (r.later T).answered (T + now) a = (r.answered now a).later T := by
  have hspan : T + now - (T + r.startedAt) = now - r.startedAt := Nat.add_sub_add_left _ _ _
  have hlate : (r.later T).isLate (T + now) = r.isLate now := by
    simp only [isLate, later, hspan]
  cases a with
  | done a => simp only [answered, later, hspan, Move.later]
  | fatal e => rfl
  | busy e =>
    simp only [answered, hlate]
    simp only [later, hspan]
    split <;> rfl

theorem woken_later (rested cancelled : Bool) :
    ((r.later T).woken rested cancelled : Move ε α) = (r.woken rested cancelled).later T := by
  cases rested <;> cases cancelled <;> rfl

end Retry

/-! ## Moving on -/

namespace Coordinator

variable {c : Coordinator} {m : Moment}

@[simp] theorem brief_later : (c.later T).brief = c.brief := rfl

theorem terminate_later (o : Outcome) (failure : Option MissionError) :
    (c.later T).terminate (m.later T) o failure = (c.terminate m o failure).later T := by
  simp only [terminate, enter, later, Moment.later, Phase.later, Nat.add_sub_add_left]

theorem endMove_later (move : Retry.Move (Retry.Pending String) Unit) :
    (c.later T).endMove (m.later T) (move.later T) = (c.endMove m move).later T := by
  cases move with
  | wait r w => rfl
  | stop o =>
    simp only [endMove, Retry.Move.later]
    split
    · simp only [abort, terminate_later, apply_ite (later T)]
      rfl
    · exact terminate_later _ _
    · exact terminate_later _ _
    · exact terminate_later _ _

theorem awaitEnd_later : (c.later T).awaitEnd (m.later T) = (c.awaitEnd m).later T := by
  simp only [awaitEnd]
  rw [← endMove_later, ← Retry.start_later]
  rfl

theorem proceed_later (rest : List Action) : (c.later T).proceed rest = (c.proceed rest).later T := by
  cases rest <;> rfl

theorem activate_later : (c.later T).activate (m.later T) = (c.activate m).later T := by
  cases hplan : c.brief.plan with
  | none =>
    simp only [activate, enter, brief_later, hplan]
    exact awaitEnd_later (c := c.enter .active)
  | some actions =>
    simp only [activate, enter, brief_later, hplan]
    exact proceed_later (c := c.enter .active) actions

theorem beginMove_later (move : Retry.Move (Retry.Pending String) Unit) :
    (c.later T).beginMove (m.later T) (move.later T) = (c.beginMove m move).later T := by
  cases move with
  | wait r w => rfl
  | stop o =>
    simp only [beginMove, Retry.Move.later]
    split
    · exact activate_later (c := { c with began := true })
    · exact activate_later
    · exact terminate_later _ _
    · exact terminate_later _ _

theorem awaitBegin_later : (c.later T).awaitBegin (m.later T) = (c.awaitBegin m).later T := by
  simp only [awaitBegin]
  rw [← beginMove_later, ← Retry.start_later]
  rfl

theorem joinMove_later (move : Retry.Move JoinError Unit) :
    (c.later T).joinMove (m.later T) (move.later T) = (c.joinMove m move).later T := by
  rcases move with ⟨r, w⟩ | ⟨_, attempts, _⟩ | ⟨_, attempts, elapsed⟩ | ⟨e, attempts⟩ | _
  · rfl
  · exact awaitBegin_later (c := { c with joinAttempts := attempts })
  · exact terminate_later (c := { c with joinAttempts := attempts }) _ _
  · exact terminate_later (c := { c with joinAttempts := attempts }) _ _
  · exact terminate_later _ _

theorem join_later : (c.later T).join (m.later T) = (c.join m).later T := by
  simp only [join]
  rw [← joinMove_later, ← Retry.start_later]
  rfl

theorem probe_later (limit : Nat) (rest : List Endpoint) :
    (c.later T).probe (m.later T) limit rest = (c.probe m limit rest).later T := by
  cases rest with
  | nil => exact join_later
  | cons endpoint rest => rfl

theorem start_later : (c.later T).start (m.later T) = (c.start m).later T := by
  cases hprobe : c.brief.settings.probeTimeout with
  | none =>
    simp only [start, brief_later, hprobe]
    exact join_later (c := { c with startedAt := m.now })
  | some limit =>
    simp only [start, brief_later, hprobe]
    exact probe_later (c := { c with startedAt := m.now }.enter .probing) limit _

theorem checked_later (rest : List Action) (s : Status) :
    (c.later T).checked (m.later T) rest s = (c.checked m rest s).later T := by
  simp only [checked, apply_ite (later T), ← proceed_later, ← awaitEnd_later, abort,
    ← terminate_later]
  rfl

theorem commandSent_later (a : Action) (rest : List Action) :
    (c.later T).commandSent a rest = (c.commandSent a rest).later T := by
  unfold commandSent
  rw [brief_later]
  split <;> rfl

/-- Whatever a coordinator is told, it does the same on both clocks. -/
theorem advance_later (e : Event) :
    (c.later T).advance (m.later T) e = (c.advance m e).later T := by
  obtain ⟨brief, phase, startedAt, stages, attempts, sent, began, failure⟩ := c
  cases phase with
  | fresh =>
    cases e with
    | started => exact start_later
    | _ => rfl
  | probing limit endpoint rest =>
    cases e with
    | probed => exact probe_later limit rest
    | _ => rfl
  | joining loop wait =>
    cases wait with
    | answer =>
      cases e with
      | joined a => exact (congrArg _ (Retry.answered_later _)).trans (joinMove_later _)
      | _ => rfl
    | pause =>
      cases e with
      | woken rested => exact (congrArg _ (Retry.woken_later _ _)).trans (joinMove_later _)
      | _ => rfl
  | awaitingBegin loop wait =>
    cases wait with
    | answer =>
      cases e with
      | status a => exact (congrArg _ (Retry.answered_later _)).trans (beginMove_later _)
      | _ => rfl
    | pause =>
      cases e with
      | woken rested => exact (congrArg _ (Retry.woken_later _ _)).trans (beginMove_later _)
      | _ => rfl
  | sending a rest =>
    cases e with
    | sent answer =>
      cases answer with
      | ok _ => exact commandSent_later a rest
      | error reason => exact terminate_later _ _
    | _ => rfl
  | observing a rest =>
    cases e with
    | observed o => cases o <;> rfl
    | _ => rfl
  | publishing snapshot rest => cases e <;> rfl
  | pacing rest =>
    cases e with
    | woken rested =>
      cases rested with
      | true => rfl
      | false => exact terminate_later _ _
    | _ => rfl
  | checking rest =>
    cases e with
    | status a =>
      cases a with
      | ok s => exact checked_later rest s
      | error reason => exact terminate_later _ _
    | _ => rfl
  | quitting =>
    cases e with
    | sent answer =>
      cases answer with
      | ok _ =>
        exact awaitEnd_later
          (c := ⟨brief, .quitting, startedAt, stages, attempts, sent + 1, began, failure⟩)
      | error reason => exact terminate_later _ _
    | _ => rfl
  | awaitingEnd loop wait =>
    cases wait with
    | answer =>
      cases e with
      | status a =>
        cases a with
        | ok s =>
          exact (congrArg _ (Retry.answered_later _)).trans (endMove_later
            (c := notice ⟨brief, .awaitingEnd loop .answer, startedAt, stages, attempts, sent, began,
              failure⟩ s) _)
        | error reason =>
          exact terminate_later (c := ⟨brief, .awaitingEnd loop .answer, startedAt, stages, attempts,
            sent, began, failure⟩) _ _
      | _ => rfl
    | pause =>
      cases e with
      | woken rested => exact (congrArg _ (Retry.woken_later _ _)).trans (endMove_later _)
      | _ => rfl
  | terminated o elapsed => cases e <;> rfl

theorem report?_later : (c.later T).report? = c.report? := by
  simp only [report?, later]
  cases c.phase <;> rfl

theorem request_later : (c.later T).request = c.request.map (Request.later T) := by
  simp only [request, later]
  cases c.phase
  case joining loop wait => cases wait <;> rfl
  case awaitingBegin loop wait => cases wait <;> rfl
  case awaitingEnd loop wait => cases wait <;> rfl
  all_goals rfl

/-- Before its start a coordinator may also have kept no time at all. -/
def Delayed (T : Nat) (c c' : Coordinator) : Prop :=
  c' = c.later T ∨ c.phase = .fresh ∧ c' = c

namespace Delayed

variable {c' : Coordinator}

theorem brief (h : Delayed T c c') : c'.brief = c.brief := by
  rcases h with rfl | ⟨-, rfl⟩ <;> rfl

theorem report? (h : Delayed T c c') : c'.report? = c.report? := by
  rcases h with rfl | ⟨-, rfl⟩
  · exact report?_later
  · rfl

theorem request (h : Delayed T c c') : c'.request = c.request.map (Request.later T) := by
  rcases h with rfl | ⟨hphase, rfl⟩
  · exact request_later
  · simp only [Coordinator.request, hphase, Option.map_none]

theorem advance (h : Delayed T c c') (m : Moment) (e : Event) :
    Delayed T (c.advance m e) (c'.advance (m.later T) e) := by
  rcases h with rfl | ⟨hphase, rfl⟩
  · exact .inl (advance_later e)
  · by_cases he : e = .started
    · -- The start forgets all times that were kept before.
      have hstart : c'.start (m.later T) = (c'.later T).start (m.later T) := by
        obtain ⟨⟩ := c'
        cases hphase
        rfl
      rw [he, advance_fresh hphase, advance_fresh hphase, hstart]
      exact .inl start_later
    · rw [advance_of_fresh hphase he, advance_of_fresh hphase he]
      exact .inr ⟨hphase, rfl⟩

end Delayed

end Coordinator

end Labyrinth

import Labyrinth.Proofs.Coordinator.Completion
import Mathlib.Data.List.Induction
import Mathlib.Data.List.Nodup

/-!
# The life of a coordinator

The stages of a mission come in one order, and a mission that ends early leaves out the last of
them. Which stages it enters can be read off its log: it waits for the begin once it has been let
in, and it is active once that wait has come to an end without a failure. The outcome says how far
it can have come.
-/

namespace Labyrinth.Coordinator

/-- The stages of a mission in which nothing goes wrong. -/
def lifecycle : List Stage := [.joining, .awaitingBegin, .active, .awaitingEnd]

/-- What comes before the first of them. -/
def opening (b : Brief) : List Stage :=
  if b.settings.probeTimeout.isSome then [.probing] else []

/-! ## The wait for the begin -/

/-- How far a role has come with its wait for the begin of its session. -/
inductive BeginWait where
  /-- It has not been let in. -/
  | ahead
  | lasting (since : Nat)
  /-- It was told of the begin, or later than its deadline that there was none yet. -/
  | past
  | failed
deriving DecidableEq

namespace BeginWait

def isLate (b : Brief) (since : Nat) (e : Exchange) : Bool :=
  b.settings.beginning.deadline.any fun d => decide (since + d < e.answeredAt)

/-- What a call does to the wait. The calls after its end are no concern of it. -/
def next (b : Brief) (w : BeginWait) (e : Exchange) : BeginWait :=
  match w with
  | .ahead => if e.isAdmission then .lasting e.answeredAt else .ahead
  | .lasting since =>
    if !e.isStatus then .lasting since
    else if e.isFailure then .failed
    else if e.saysBegun || isLate b since e then .past
    else .lasting since
  | .past => .past
  | .failed => .failed

def isLasting : BeginWait → Bool
  | .lasting _ => true
  | _ => false

end BeginWait

/-- The wait for the begin as a log tells of it. -/
def beginWait (b : Brief) (log : List Exchange) : BeginWait := log.foldl (BeginWait.next b) .ahead

variable {b : Brief} {x : Cancellation} {log : List Exchange} {now t : Nat} {c : Coordinator}

theorem beginWait_concat (b : Brief) (log : List Exchange) (q : Exchange) :
    beginWait b (log ++ [q]) = (beginWait b log).next b q := by
  simp [beginWait]

theorem beginWait_concat_of_past (h : beginWait b log = .past) (q : Exchange) :
    beginWait b (log ++ [q]) = .past := by
  rw [beginWait_concat, h]
  rfl

theorem BeginWait.next_ne_ahead {w : BeginWait} (h : w ≠ .ahead) (e : Exchange) :
    w.next b e ≠ .ahead := by
  unfold next
  split
  · exact absurd rfl h
  · repeat' split
    all_goals simp
  · simp
  · simp

theorem beginWait_eq_ahead_iff : beginWait b log = .ahead ↔ ∀ e ∈ log, ¬ e.isAdmission := by
  induction log using List.reverseRecOn with
  | nil => simp [beginWait]
  | append_singleton log q ih =>
    rw [beginWait_concat, List.forall_mem_append, ← ih, List.forall_mem_singleton]
    by_cases hw : beginWait b log = .ahead
    · rw [hw]
      unfold BeginWait.next
      by_cases hq : q.isAdmission <;> simp [hq]
    · exact iff_of_false (BeginWait.next_ne_ahead hw q) fun h => hw h.1

/-! ## Where a mission stands -/

/-- How many stages of the lifecycle have been entered in a phase before the end. -/
def Phase.depth : Phase → Nat
  | .fresh | .probing _ _ _ | .terminated _ _ => 0
  | .joining _ _ => 1
  | .awaitingBegin _ _ => 2
  | .awaitingEnd _ _ => 4
  | _ => 3

/-- A mission goes on and has entered so many stages of its lifecycle. -/
structure Entered (b : Brief) (k : Nat) (c : Coordinator) : Prop where
  brief : c.brief = b
  stages : c.stages = opening b ++ lifecycle.take k
  failure : c.failure = none

/-- The first call of the log was made at time `t`. A log without calls gets its first one now. -/
def FirstAsked (log : List Exchange) (t now : Nat) : Prop :=
  log = [] ∧ t = now ∨ ∃ e, log.head? = some e ∧ e.askedAt = t

/-- What the log tells in a phase before the end. -/
def Tells (b : Brief) (log : List Exchange) (now : Nat) : Phase → Prop
  | .fresh | .terminated _ _ => False
  | .probing _ _ _ => log = []
  | .joining loop .answer =>
    beginWait b log = .ahead ∧ loop.policy = b.settings.joining ∧
      FirstAsked log loop.startedAt now
  | .joining loop .pause =>
    beginWait b log = .ahead ∧ loop.policy = b.settings.joining ∧
      ∃ e, log.head? = some e ∧ e.askedAt = loop.startedAt
  | .awaitingBegin loop _ =>
    beginWait b log = .lasting loop.startedAt ∧ loop.policy = b.settings.beginning
  | _ => beginWait b log = .past

/-- How a mission can end after so many stages of its lifecycle. -/
inductive Closes (b : Brief) (x : Cancellation) (log : List Exchange) (now : Nat) :
    Nat → Outcome → Option MissionError → Prop where
  | unjoined (ahead : beginWait b log = .ahead) (h : x.reached now) :
      Closes b x log now 1 .cancelled (some .cancelled)
  | refused (ahead : beginWait b log = .ahead) (e : JoinError) :
      Closes b x log now 1 .aborted (some (.join e))
  | late (ahead : beginWait b log = .ahead) (first : Exchange) (d : Nat)
      (hfirst : log.head? = some first) (hd : b.settings.joining.deadline = some d)
      (hlt : d < now - first.askedAt) :
      Closes b x log now 1 .joinTimeout
        (some (.joinTimeout b.role (.ofMillis (now - first.askedAt))))
  | unbegun (since : Nat) (lasting : beginWait b log = .lasting since) (h : x.reached now) :
      Closes b x log now 2 .cancelled (some .cancelled)
  | unpolled (failed : beginWait b log = .failed) (reason : String) :
      Closes b x log now 2 .aborted (some (.status reason))
  | broken {k : Nat} (deep : k = 3 ∨ k = 4) (past : beginWait b log = .past)
      (e : MissionError) : Closes b x log now k .aborted (some e)
  | stopped {k : Nat} (deep : k = 3 ∨ k = 4) (past : beginWait b log = .past)
      (h : x.reached now) : Closes b x log now k .cancelled (some .cancelled)
  | completed (past : beginWait b log = .past) : Closes b x log now 4 .completed none

/-- The stages of a mission and what it knows of a failure fit its phase and its log. -/
def Staged (b : Brief) (x : Cancellation) (log : List Exchange) (now : Nat) (c : Coordinator) :
    Prop :=
  match c.phase with
  | .terminated o _ =>
    c.brief = b ∧ ∃ k, 0 < k ∧ k ≤ 4 ∧
      c.stages = opening b ++ lifecycle.take k ++ [.terminated o] ∧
      Closes b x log now k o c.failure
  | p => Entered b p.depth c ∧ Tells b log now p

theorem Staged.of_phase {p : Phase} (h : Staged b x log now c) (hphase : c.phase = p)
    (live : ∀ o elapsed, p ≠ .terminated o elapsed) : Entered b p.depth c ∧ Tells b log now p := by
  subst hphase
  unfold Staged at h
  split at h
  · rename_i o elapsed hphase
    exact absurd hphase (live o elapsed)
  · exact h

/-! ## Entering a stage -/

theorem Entered.enter {k : Nat} {s : Stage} (h : Entered b k c) (hs : lifecycle[k]? = some s) :
    Entered b (k + 1) (c.enter s) where
  brief := h.brief
  stages := by
    simp only [Coordinator.enter]
    rw [h.stages, List.take_add_one, hs, List.append_assoc]
    rfl
  failure := h.failure

theorem Entered.staged_terminate {k : Nat} {o : Outcome} {failure : Option MissionError}
    {m : Moment} (h : Entered b k c) (hpos : 0 < k) (hle : k ≤ 4)
    (closes : Closes b x log now k o failure) : Staged b x log now (c.terminate m o failure) := by
  refine ⟨h.brief, k, hpos, hle, ?_, closes⟩
  simp only [Coordinator.terminate, Coordinator.enter]
  rw [h.stages]

theorem Entered.of_same {k : Nat} {c' : Coordinator} (h : Entered b k c)
    (hbrief : c'.brief = c.brief) (hstages : c'.stages = c.stages)
    (hfailure : c'.failure = c.failure) : Entered b k c' :=
  ⟨hbrief.trans h.brief, hstages.trans h.stages, hfailure.trans h.failure⟩

theorem staged_awaitEnd (h : Entered b 3 c) (past : beginWait b log = .past) :
    Staged b x log now (c.awaitEnd (moment x now)) := by
  have hentered : Entered b 4 (c.enter .awaitingEnd) := h.enter rfl
  unfold awaitEnd moment Retry.start Retry.next
  dsimp only
  split
  · exact hentered.staged_terminate (by omega) (by omega) (.stopped (.inr rfl) past ‹_›)
  · exact ⟨hentered.of_same rfl rfl rfl, past⟩

theorem staged_proceed (h : Entered b 3 c) (past : beginWait b log = .past)
    (rest : List Action) : Staged b x log now (c.proceed rest) := by
  cases rest with
  | nil => exact ⟨h.of_same rfl rfl rfl, past⟩
  | cons a rest => exact ⟨h.of_same rfl rfl rfl, past⟩

theorem staged_activate (h : Entered b 2 c) (past : beginWait b log = .past) :
    Staged b x log now (c.activate (moment x now)) := by
  have hentered : Entered b 3 (c.enter .active) := h.enter rfl
  unfold activate
  dsimp only
  split
  · exact staged_awaitEnd hentered past
  · exact staged_proceed hentered past _

theorem staged_awaitBegin (h : Entered b 1 c) (lasting : beginWait b log = .lasting now) :
    Staged b x log now (c.awaitBegin (moment x now)) := by
  have hentered : Entered b 2 (c.enter .awaitingBegin) := h.enter rfl
  unfold awaitBegin moment Retry.start Retry.next
  dsimp only
  split
  · exact hentered.staged_terminate (by omega) (by omega) (.unbegun now lasting ‹_›)
  · refine ⟨hentered.of_same rfl rfl rfl, lasting, ?_⟩
    rw [← h.brief]
    rfl

theorem staged_join (h : Entered b 0 c) : Staged b x [] now (c.join (moment x now)) := by
  have hentered : Entered b 1 (c.enter .joining) := h.enter rfl
  unfold join moment Retry.start Retry.next
  dsimp only
  split
  · exact hentered.staged_terminate (by omega) (by omega) (.unjoined rfl ‹_›)
  · refine ⟨hentered.of_same rfl rfl rfl, rfl, ?_, .inl ⟨rfl, rfl⟩⟩
    rw [← h.brief]
    rfl

theorem staged_probe (h : Entered b 0 c) (limit : Nat) (rest : List Endpoint) :
    Staged b x [] now (c.probe (moment x now) limit rest) := by
  cases rest with
  | nil => exact staged_join h
  | cons endpoint rest => exact ⟨h.of_same rfl rfl rfl, rfl⟩

theorem staged_start : Staged b x [] now ((ofBrief b).advance (moment x now) .started) := by
  rw [advance_fresh rfl]
  unfold start
  dsimp only
  split
  · rename_i hprobe
    refine staged_join ⟨rfl, ?_, rfl⟩
    have hnone : b.settings.probeTimeout = none := hprobe
    simp [opening, hnone, ofBrief]
  · rename_i limit hprobe
    refine staged_probe ⟨rfl, ?_, rfl⟩ limit _
    have hsome : b.settings.probeTimeout = some limit := hprobe
    simp [opening, hsome, ofBrief, Coordinator.enter]

/-! ## Loops -/

section Loops

variable {loop : Retry}

theorem staged_joined (h : Staged b x log now c) (hphase : c.phase = .joining loop .answer)
    (a : Except JoinError Unit) :
    Staged b x (log ++ [⟨.join, now, .joined a, t⟩]) t
      (c.advance (moment x t) (.joined a)) := by
  obtain ⟨hentered, hahead, hpolicy, hfirst⟩ := h.of_phase hphase (by simp)
  obtain ⟨first, hhead, hasked⟩ :
      ∃ e, (log ++ [(⟨.join, now, .joined a, t⟩ : Exchange)]).head? = some e ∧
        e.askedAt = loop.startedAt := by
    rcases hfirst with ⟨rfl, heq⟩ | ⟨e, he, heq⟩
    · exact ⟨_, rfl, heq.symm⟩
    · exact ⟨e, by simp [he], heq⟩
  have hwait := beginWait_concat b log ⟨.join, now, .joined a, t⟩
  rw [hahead] at hwait
  rw [advance_joining_answer hphase]
  cases a with
  | ok => exact staged_awaitBegin (hentered.of_same rfl rfl rfl) hwait
  | error e =>
    unfold joinAnswer
    dsimp only
    split
    · unfold Retry.answered
      dsimp only
      split
      · rename_i hlate
        refine Entered.staged_terminate (k := 1) (hentered.of_same rfl rfl rfl) (by omega)
          (by omega) ?_
        unfold Retry.isLate at hlate
        split at hlate
        · cases hlate
        · rename_i d hd
          have hlt : d < t - loop.startedAt := of_decide_eq_true hlate
          rw [hpolicy] at hd
          rw [← hasked] at hlt ⊢
          rw [hentered.brief]
          exact .late hwait first d hhead hd hlt
      · exact ⟨hentered.of_same rfl rfl rfl, hwait, hpolicy, first, hhead, hasked⟩
    · exact Entered.staged_terminate (k := 1) (hentered.of_same rfl rfl rfl) (by omega)
        (by omega) (.refused hwait e)

theorem staged_joinPause (h : Staged b x log now c) (hphase : c.phase = .joining loop .pause)
    (span : Nat) :
    Staged b x log (x.nap now span).wokenAt
      (c.advance (moment x (x.nap now span).wokenAt) (.woken (x.nap now span).rested)) := by
  obtain ⟨hentered, hahead, hpolicy, hfirst⟩ := h.of_phase hphase (by simp)
  rw [advance_joining_pause hphase]
  unfold moment
  rcases woken_nap x now loop span with ⟨hreached, hwoken⟩ | ⟨-, hwoken⟩
  · rw [hwoken]
    exact Entered.staged_terminate (k := 1) hentered (by omega) (by omega)
      (.unjoined hahead hreached)
  · rw [hwoken]
    exact ⟨hentered.of_same rfl rfl rfl, hahead, hpolicy, .inr hfirst⟩

theorem staged_polled (h : Staged b x log now c)
    (hphase : c.phase = .awaitingBegin loop .answer) (a : Except String Status) :
    Staged b x (log ++ [⟨.status, now, .status a, t⟩]) t
      (c.advance (moment x t) (.status a)) := by
  obtain ⟨hentered, hlasting, hpolicy⟩ := h.of_phase hphase (by simp)
  have hwait := beginWait_concat b log ⟨.status, now, .status a, t⟩
  rw [hlasting] at hwait
  rw [advance_awaitingBegin_answer hphase]
  cases a with
  | error reason =>
    exact Entered.staged_terminate (k := 2) (hentered.of_same rfl rfl rfl) (by omega) (by omega)
      (.unpolled hwait reason)
  | ok s =>
    cases hbegun : s.hasBegun with
    | true =>
      simp only [Except.map, hbegun, Retry.pollAnswer, Retry.answered]
      refine staged_activate (hentered.of_same rfl rfl rfl) (hwait.trans ?_)
      simp [BeginWait.next, Exchange.isStatus, Exchange.isFailure, Exchange.saysBegun,
        Exchange.status?, hbegun]
    | false =>
      have hlate : BeginWait.isLate b loop.startedAt ⟨.status, now, .status (.ok s), t⟩ =
          loop.isLate t := by
        unfold BeginWait.isLate Retry.isLate
        rw [hpolicy]
        cases b.settings.beginning.deadline with
        | none => rfl
        | some d =>
          simp only [Option.any_some]
          exact decide_eq_decide.mpr (by omega)
      have hnext : beginWait b (log ++ [⟨.status, now, .status (.ok s), t⟩]) =
          if loop.isLate t then .past else .lasting loop.startedAt := by
        rw [hwait]
        simp [BeginWait.next, Exchange.isStatus, Exchange.isFailure, Exchange.saysBegun,
          Exchange.status?, hbegun, hlate]
      simp only [Except.map, hbegun, Retry.pollAnswer, Retry.answered]
      split
      · exact staged_activate (hentered.of_same rfl rfl rfl) (hnext.trans (if_pos ‹_›))
      · exact ⟨hentered.of_same rfl rfl rfl, hnext.trans (if_neg ‹_›), hpolicy⟩

theorem staged_beginPause (h : Staged b x log now c)
    (hphase : c.phase = .awaitingBegin loop .pause) (span : Nat) :
    Staged b x log (x.nap now span).wokenAt
      (c.advance (moment x (x.nap now span).wokenAt) (.woken (x.nap now span).rested)) := by
  obtain ⟨hentered, hlasting, hpolicy⟩ := h.of_phase hphase (by simp)
  rw [advance_awaitingBegin_pause hphase]
  unfold moment
  rcases woken_nap x now loop span with ⟨hreached, hwoken⟩ | ⟨-, hwoken⟩
  · rw [hwoken]
    exact Entered.staged_terminate (k := 2) hentered (by omega) (by omega)
      (.unbegun loop.startedAt hlasting hreached)
  · rw [hwoken]
    exact ⟨hentered.of_same rfl rfl rfl, hlasting, hpolicy⟩

theorem staged_awaited (h : Staged b x log now c) (hphase : c.phase = .awaitingEnd loop .answer)
    (a : Except String Status) :
    Staged b x (log ++ [⟨.status, now, .status a, t⟩]) t
      (c.advance (moment x t) (.status a)) := by
  obtain ⟨hentered, hpast⟩ := h.of_phase hphase (by simp)
  have hwait := beginWait_concat_of_past hpast ⟨.status, now, .status a, t⟩
  have haborted : ∀ (c' : Coordinator) (e : MissionError), Entered b 4 c' →
      Staged b x (log ++ [⟨.status, now, .status a, t⟩]) t (c'.abort (moment x t) e) :=
    fun c' e h => h.staged_terminate (by omega) (by omega) (.broken (.inr rfl) hwait e)
  cases a with
  | error reason =>
    rw [advance_awaitingEnd_failed hphase]
    exact haborted _ _ hentered
  | ok s =>
    rw [advance_awaitingEnd_answer hphase]
    cases hrun : s.isRunning with
    | false =>
      simp only [Retry.pollAnswer, Retry.answered, endMove, Retry.Outcome.poll, Bool.not_false]
      split
      · exact Entered.staged_terminate (k := 4) (hentered.of_same rfl rfl rfl) (by omega)
          (by omega) (.completed hwait)
      · exact haborted _ _ (hentered.of_same rfl rfl rfl)
    | true =>
      simp only [Retry.pollAnswer, Retry.answered, Bool.not_true]
      split
      · exact haborted _ _ (hentered.of_same rfl rfl rfl)
      · exact ⟨hentered.of_same rfl rfl rfl, hwait⟩

theorem staged_endPause (h : Staged b x log now c) (hphase : c.phase = .awaitingEnd loop .pause)
    (span : Nat) :
    Staged b x log (x.nap now span).wokenAt
      (c.advance (moment x (x.nap now span).wokenAt) (.woken (x.nap now span).rested)) := by
  obtain ⟨hentered, hpast⟩ := h.of_phase hphase (by simp)
  rw [advance_awaitingEnd_pause hphase]
  unfold moment
  rcases woken_nap x now loop span with ⟨hreached, hwoken⟩ | ⟨-, hwoken⟩
  · rw [hwoken]
    exact Entered.staged_terminate (k := 4) hentered (by omega) (by omega)
      (.stopped (.inr rfl) hpast hreached)
  · rw [hwoken]
    exact ⟨hentered.of_same rfl rfl rfl, hpast⟩

end Loops

/-! ## The plan -/

theorem Entered.staged_abort {m : Moment} {e : MissionError} (h : Entered b 3 c)
    (past : beginWait b log = .past) : Staged b x log now (c.abort m e) :=
  h.staged_terminate (by omega) (by omega) (.broken (.inl rfl) past e)

theorem staged_checked {rest : List Action} (h : Entered b 3 c) (past : beginWait b log = .past)
    (s : Status) : Staged b x log now (c.checked (moment x now) rest s) := by
  have hentered : Entered b 3 (c.notice s) := h.of_same rfl rfl rfl
  unfold checked
  dsimp only
  split
  · exact staged_proceed hentered past rest
  · split
    · exact staged_awaitEnd hentered past
    · split
      · exact hentered.staged_abort past
      · exact hentered.staged_abort past

/-! ## Every history -/

theorem Staged.told {e : Event} {calls : List Exchange} (h : Staged b x log now c)
    (told : Told b x now c.phase e t calls) :
    Staged b x (log ++ calls) t (c.advance (moment x t) e) := by
  generalize hphase : c.phase = p at told
  cases told with
  | probed =>
    obtain ⟨hentered, hlog⟩ := h.of_phase hphase (by simp)
    rw [show log = [] from hlog, advance_probing hphase]
    exact staged_probe hentered _ _
  | joined _ loop a => exact staged_joined h hphase a
  | joinPause loop => exact (List.append_nil log).symm ▸ staged_joinPause h hphase _
  | polled _ loop a => exact staged_polled h hphase a
  | beginPause loop => exact (List.append_nil log).symm ▸ staged_beginPause h hphase _
  | sent _ a rest answer =>
    obtain ⟨hentered, hpast⟩ := h.of_phase hphase (by simp)
    have hwait := beginWait_concat_of_past hpast ⟨.send a.command.token, now, .sent answer, t⟩
    cases answer with
    | error reason =>
      rw [advance_sending_failed hphase]
      exact hentered.staged_abort hwait
    | ok =>
      rw [advance_sending hphase]
      unfold commandSent
      split
      · exact ⟨hentered.of_same rfl rfl rfl, hwait⟩
      · exact ⟨hentered.of_same rfl rfl rfl, hwait⟩
  | observed _ a rest o =>
    obtain ⟨hentered, hpast⟩ := h.of_phase hphase (by simp)
    rw [advance_observing hphase]
    exact ⟨hentered.of_same rfl rfl rfl, beginWait_concat_of_past hpast _⟩
  | published snapshot rest =>
    obtain ⟨hentered, hpast⟩ := h.of_phase hphase (by simp)
    rw [advance_publishing hphase, List.append_nil]
    exact ⟨hentered.of_same rfl rfl rfl, hpast⟩
  | paced rest =>
    obtain ⟨hentered, hpast⟩ := h.of_phase hphase (by simp)
    rw [List.append_nil]
    cases hrested : (x.nap now b.settings.pacing).rested with
    | false =>
      rw [advance_pacing_cut hphase]
      exact Entered.staged_terminate (k := 3) hentered (by omega) (by omega)
        (.stopped (.inl rfl) hpast (Cancellation.reached_wokenAt_nap hrested))
    | true =>
      rw [advance_pacing hphase]
      exact ⟨hentered.of_same rfl rfl rfl, hpast⟩
  | checked _ rest a =>
    obtain ⟨hentered, hpast⟩ := h.of_phase hphase (by simp)
    have hwait := beginWait_concat_of_past hpast ⟨.status, now, .status a, t⟩
    cases a with
    | error reason =>
      rw [advance_checking_failed hphase]
      exact hentered.staged_abort hwait
    | ok s =>
      rw [advance_checking hphase]
      exact staged_checked hentered hwait s
  | quit _ answer =>
    obtain ⟨hentered, hpast⟩ := h.of_phase hphase (by simp)
    have hwait := beginWait_concat_of_past hpast ⟨.send Command.quitToken, now, .sent answer, t⟩
    cases answer with
    | error reason =>
      rw [advance_quitting_failed hphase]
      exact hentered.staged_abort hwait
    | ok =>
      rw [advance_quitting hphase]
      exact staged_awaitEnd (hentered.of_same rfl rfl rfl) hwait
  | awaited _ loop a => exact staged_awaited h hphase a
  | endPause loop => exact (List.append_nil log).symm ▸ staged_endPause h hphase _

theorem History.staged (h : History b x log c now) : Staged b x log now c := by
  induction h with
  | start now => exact staged_start
  | goOn h asked answered ih => exact ih.told (answered.told h.stands.brief asked)

/-! ## What a report says -/

/-- The stages, the outcome and the failure of a report fit each other and the log. -/
structure Orderly (b : Brief) (x : Cancellation) (log : List Exchange) (now : Nat)
    (report : Report) : Prop where
  /-- Probing comes first if it is wanted, then some stages of the lifecycle in order, then the end
  with the outcome of the report. -/
  stages : ∃ k, 0 < k ∧ k ≤ 4 ∧
    report.stages = opening b ++ lifecycle.take k ++ [.terminated report.outcome]
  awaitingBegin : .awaitingBegin ∈ report.stages ↔ ∃ e ∈ log, e.isJoin ∧ e.isAdmission
  /-- Active is a role that has been let in, if no poll for the begin failed and its wait for the
  begin has come to an end. -/
  active : .active ∈ report.stages ↔ (∃ e ∈ log, e.isJoin ∧ e.isAdmission) ∧
    beginWait b log ≠ .failed ∧ ¬ (beginWait b log).isLasting
  /-- Only a cancellation cuts the wait for the begin short. -/
  cancelled : (beginWait b log).isLasting → report.outcome = .cancelled ∧ x.reached now
  joinTimeout : report.outcome = .joinTimeout →
    report.stages = opening b ++ [.joining, .terminated .joinTimeout] ∧
      ∃ first d, log.head? = some first ∧ b.settings.joining.deadline = some d ∧
        d < now - first.askedAt ∧
        report.failure = some (.joinTimeout b.role (.ofMillis (now - first.askedAt)))
  completed : report.outcome = .completed →
    report.stages = opening b ++ lifecycle ++ [.terminated .completed]
  failure : report.failure = none ↔ report.outcome = .completed

theorem not_mem_opening {s : Stage} (h : s ≠ .probing) : s ∉ opening b := by
  unfold opening
  split <;> simp [h]

theorem mem_take_lifecycle_iff {k i : Nat} {s : Stage} (hs : lifecycle[i]? = some s) :
    s ∈ lifecycle.take k ↔ i < k := by
  obtain ⟨hi, rfl⟩ := List.getElem?_eq_some_iff.mp hs
  have hnodup : lifecycle.Nodup := by decide
  rw [List.mem_take_iff_getElem]
  constructor
  · rintro ⟨j, hj, heq⟩
    have hij : j = i := (hnodup.getElem_inj_iff).mp heq
    omega
  · intro hlt
    exact ⟨i, Nat.lt_min.mpr ⟨hlt, hi⟩, rfl⟩

theorem mem_stages_iff {k i : Nat} {s : Stage} {o : Outcome} (hs : lifecycle[i]? = some s) :
    s ∈ opening b ++ lifecycle.take k ++ [.terminated o] ↔ i < k := by
  have hmem : s ∈ lifecycle := List.mem_of_getElem? hs
  have hprobing : s ≠ .probing := by
    rintro rfl
    revert hmem
    decide
  have hterminated : s ≠ .terminated o := by
    rintro rfl
    simp [lifecycle] at hmem
  simp only [List.mem_append, List.mem_singleton, not_mem_opening hprobing, hterminated, false_or,
    or_false]
  exact mem_take_lifecycle_iff hs

theorem History.exists_admission_iff (h : History b x log c now) :
    beginWait b log ≠ .ahead ↔ ∃ e ∈ log, e.isJoin ∧ e.isAdmission := by
  rw [Ne, beginWait_eq_ahead_iff]
  constructor
  · intro hnot
    by_contra hnone
    refine hnot fun e he hadmission => hnone ⟨e, he, ?_, hadmission⟩
    exact (h.answers e he).isJoin hadmission
  · rintro ⟨e, he, -, hadmission⟩ hnone
    exact hnone e he hadmission

section Closes

variable {k : Nat} {o : Outcome} {failure : Option MissionError}

theorem Closes.ahead_iff (h : Closes b x log now k o failure) :
    beginWait b log = .ahead ↔ k = 1 := by
  cases h with
  | unjoined ahead | refused ahead | late ahead => simp [ahead]
  | unbegun since lasting => simp [lasting]
  | unpolled failed => simp [failed]
  | broken deep past | stopped deep past =>
    rw [past]
    exact iff_of_false (by simp) (by omega)
  | completed past => simp [past]

theorem Closes.past_iff (h : Closes b x log now k o failure) :
    beginWait b log = .past ↔ 2 < k := by
  cases h with
  | unjoined ahead | refused ahead | late ahead => simp [ahead]
  | unbegun since lasting => simp [lasting]
  | unpolled failed => simp [failed]
  | broken deep past | stopped deep past => exact iff_of_true past (by omega)
  | completed past => exact iff_of_true past (by omega)

theorem Closes.cancelled_of_lasting (h : Closes b x log now k o failure)
    (lasting : (beginWait b log).isLasting) : o = .cancelled ∧ x.reached now := by
  cases h with
  | unbegun since _ hreached => exact ⟨rfl, hreached⟩
  | unjoined ahead | refused ahead | late ahead => simp [ahead, BeginWait.isLasting] at lasting
  | unpolled failed => simp [failed, BeginWait.isLasting] at lasting
  | broken _ past | stopped _ past | completed past => simp [past, BeginWait.isLasting] at lasting

theorem Closes.failure_eq_none_iff (h : Closes b x log now k o failure) :
    failure = none ↔ o = .completed := by
  cases h <;> simp

end Closes

theorem BeginWait.eq_past_iff (w : BeginWait) :
    w = .past ↔ w ≠ .ahead ∧ w ≠ .failed ∧ ¬ w.isLasting := by
  cases w <;> simp [isLasting]

theorem History.exists_stages {report : Report} (h : History b x log c now)
    (hreport : c.report? = some report) :
    ∃ k, 0 < k ∧ k ≤ 4 ∧
      report.stages = opening b ++ lifecycle.take k ++ [.terminated report.outcome] := by
  have hstaged := h.staged
  unfold Staged at hstaged
  unfold report? at hreport
  split at hreport
  · rename_i o elapsed hphase
    obtain rfl := Option.some.inj hreport
    rw [hphase] at hstaged
    obtain ⟨-, k, hpos, hle, hstages, -⟩ := hstaged
    exact ⟨k, hpos, hle, hstages⟩
  · cases hreport

/-- Whatever the host answers and whenever it is cancelled, a coordinator goes through its stages
in order, and its report says how it ended. -/
theorem History.orderly {report : Report} (h : History b x log c now)
    (hreport : c.report? = some report) : Orderly b x log now report := by
  have hstaged := h.staged
  unfold Staged at hstaged
  unfold report? at hreport
  split at hreport
  · rename_i o elapsed hphase
    obtain rfl := Option.some.inj hreport
    rw [hphase] at hstaged
    obtain ⟨-, k, hpos, hle, hstages, closes⟩ := hstaged
    generalize c.failure = failure at closes ⊢
    refine ⟨⟨k, hpos, hle, hstages⟩, ?_, ?_, closes.cancelled_of_lasting, ?_, ?_,
      closes.failure_eq_none_iff⟩
    · rw [← h.exists_admission_iff, Ne, closes.ahead_iff]
      exact (hstages ▸ mem_stages_iff rfl : Stage.awaitingBegin ∈ c.stages ↔ 1 < k).trans
        (by omega)
    · rw [← h.exists_admission_iff, ← BeginWait.eq_past_iff, closes.past_iff]
      exact hstages ▸ mem_stages_iff rfl
    · intro ho
      dsimp only at ho ⊢
      cases closes with
      | late ahead first d hfirst hd hlt =>
        exact ⟨hstages.trans (List.append_assoc ..), first, d, hfirst, hd, hlt, rfl⟩
      | _ => cases ho
    · intro ho
      dsimp only at ho ⊢
      cases closes with
      | completed => exact hstages
      | _ => cases ho
  · cases hreport

/-- The wait for the begin is over when the role walks, and all stages are entered. -/
theorem orderly_oneStep : ∃ c report, History oneStep none stepCalls c 206 ∧
    c.report? = some report ∧ beginWait oneStep stepCalls = .past ∧
    Orderly oneStep none stepCalls 206 report := by
  obtain ⟨c, h, hreport⟩ := exists_history_oneStep
  exact ⟨c, _, h, hreport, by decide, h.orderly hreport⟩

end Labyrinth.Coordinator

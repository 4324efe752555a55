import Labyrinth.Proofs.Coordinator.Standing

/-!
# Where an event leads

Which phase can follow a phase when its coordinator is told something. A loop goes into a pause only
while its deadline has not passed.
-/

namespace Labyrinth.Coordinator

/-- The phase in which the rest of a plan is taken up. -/
def Phase.onward : List Action → Phase
  | [] => .quitting
  | a :: rest => .sending a rest

def Phase.isOver : Phase → Bool
  | .terminated _ _ => true
  | _ => false

theorem isOver_of_request {c : Coordinator} {request : Request} (h : c.request = some request) :
    c.phase.isOver = false := by
  cases hphase : c.phase with
  | terminated =>
    rw [Coordinator.request, hphase] at h
    cases h
  | _ => rfl

/-- What a coordinator with a brief does next when it is told something at a time. It makes no
attempt after a cancellation. -/
inductive Leads (b : Brief) (x : Cancellation) (now : Nat) : Phase → Event → Phase → Prop where
  | finish {p : Phase} (live : p.isOver = false) (e : Event) (o : Outcome) (elapsed : Nat) :
      Leads b x now p e (.terminated o elapsed)
  | probe {limit : Nat} {endpoint : Endpoint} {rest : List Endpoint}
      (wanted : b.settings.probeTimeout = some limit)
      (pool : b.pool.endpoints = endpoint :: rest) :
      Leads b x now .fresh .started (.probing limit endpoint rest)
  | probeNext (limit : Nat) (endpoint next : Endpoint) (rest : List Endpoint) (reachable : Bool) :
      Leads b x now (.probing limit endpoint (next :: rest)) (.probed reachable)
        (.probing limit next rest)
  | join {p : Phase} {e : Event}
      (early : p = .fresh ∧ e = .started ∨
        ∃ limit endpoint reachable, p = .probing limit endpoint [] ∧ e = .probed reachable)
      (free : x.reached now = false) :
      Leads b x now p e (.joining ⟨b.settings.joining, now, 1⟩ .answer)
  | joinPause (loop : Retry) (error : JoinError) (punctual : loop.isLate now = false) :
      Leads b x now (.joining loop .answer) (.joined (.error error)) (.joining loop .pause)
  | rejoin (loop : Retry) (rested : Bool) (free : x.reached now = false) :
      Leads b x now (.joining loop .pause) (.woken rested)
        (.joining { loop with attempts := loop.attempts + 1 } .answer)
  | admitted (loop : Retry) (free : x.reached now = false) :
      Leads b x now (.joining loop .answer) (.joined (.ok ()))
        (.awaitingBegin ⟨b.settings.beginning, now, 1⟩ .answer)
  | beginPause (loop : Retry) (a : Except String Status) (punctual : loop.isLate now = false) :
      Leads b x now (.awaitingBegin loop .answer) (.status a) (.awaitingBegin loop .pause)
  | beginPoll (loop : Retry) (rested : Bool) (free : x.reached now = false) :
      Leads b x now (.awaitingBegin loop .pause) (.woken rested)
        (.awaitingBegin { loop with attempts := loop.attempts + 1 } .answer)
  | idle (loop : Retry) (a : Except String Status) (plan : b.plan = none)
      (free : x.reached now = false) :
      Leads b x now (.awaitingBegin loop .answer) (.status a)
        (.awaitingEnd ⟨b.settings.ending, now, 1⟩ .answer)
  | depart (loop : Retry) (a : Except String Status) (plan : List Action)
      (hplan : b.plan = some plan) :
      Leads b x now (.awaitingBegin loop .answer) (.status a) (.onward plan)
  | observe (a : Action) (rest : List Action) (answer : Except String Unit) :
      Leads b x now (.sending a rest) (.sent answer) (.observing a rest)
  | pace (a : Action) (rest : List Action) (answer : Except String Unit) :
      Leads b x now (.sending a rest) (.sent answer) (.pacing rest)
  | publish (a : Action) (rest : List Action) (o : Option Observation) (snapshot : Snapshot) :
      Leads b x now (.observing a rest) (.observed o) (.publishing snapshot rest)
  | published (snapshot : Snapshot) (rest : List Action) :
      Leads b x now (.publishing snapshot rest) .published (.pacing rest)
  | check (rest : List Action) : Leads b x now (.pacing rest) (.woken true) (.checking rest)
  | proceed (rest : List Action) (a : Except String Status) :
      Leads b x now (.checking rest) (.status a) (.onward rest)
  | delivered (a : Except String Status) (free : x.reached now = false) :
      Leads b x now (.checking []) (.status a) (.awaitingEnd ⟨b.settings.ending, now, 1⟩ .answer)
  | quit (answer : Except String Unit) (free : x.reached now = false) :
      Leads b x now .quitting (.sent answer) (.awaitingEnd ⟨b.settings.ending, now, 1⟩ .answer)
  | endPause (loop : Retry) (s : Status) (running : s.isRunning) :
      Leads b x now (.awaitingEnd loop .answer) (.status (.ok s)) (.awaitingEnd loop .pause)
  | endPoll (loop : Retry) (rested : Bool) (free : x.reached now = false) :
      Leads b x now (.awaitingEnd loop .pause) (.woken rested)
        (.awaitingEnd { loop with attempts := loop.attempts + 1 } .answer)

variable {b : Brief} {x : Cancellation} {now t : Nat} {c : Coordinator} {p p' : Phase} {e : Event}

/-! ## Entering a stage -/

theorem join_cases (x : Cancellation) (now : Nat) (c : Coordinator) :
    (x.reached now = false ∧
        (c.join (moment x now)).phase = .joining ⟨c.brief.settings.joining, now, 1⟩ .answer) ∨
      ∃ o elapsed, (c.join (moment x now)).phase = .terminated o elapsed := by
  unfold join moment Retry.start Retry.next
  split
  · exact .inr ⟨_, _, rfl⟩
  · exact .inl ⟨Bool.eq_false_iff.mpr ‹_›, rfl⟩

theorem awaitBegin_cases (x : Cancellation) (now : Nat) (c : Coordinator) :
    (x.reached now = false ∧
        (c.awaitBegin (moment x now)).phase =
          .awaitingBegin ⟨c.brief.settings.beginning, now, 1⟩ .answer) ∨
      ∃ o elapsed, (c.awaitBegin (moment x now)).phase = .terminated o elapsed := by
  unfold awaitBegin moment Retry.start Retry.next
  split
  · exact .inr ⟨_, _, rfl⟩
  · exact .inl ⟨Bool.eq_false_iff.mpr ‹_›, rfl⟩

theorem awaitEnd_cases (x : Cancellation) (now : Nat) (c : Coordinator) :
    (x.reached now = false ∧
        (c.awaitEnd (moment x now)).phase =
          .awaitingEnd ⟨c.brief.settings.ending, now, 1⟩ .answer) ∨
      ∃ o elapsed, (c.awaitEnd (moment x now)).phase = .terminated o elapsed := by
  unfold awaitEnd moment Retry.start Retry.next
  split
  · exact .inr ⟨_, _, rfl⟩
  · exact .inl ⟨Bool.eq_false_iff.mpr ‹_›, rfl⟩

theorem phase_proceed (c : Coordinator) (rest : List Action) :
    (c.proceed rest).phase = .onward rest := by
  cases rest <;> rfl

theorem activate_cases (x : Cancellation) (now : Nat) (c : Coordinator) :
    (c.brief.plan = none ∧ x.reached now = false ∧
        (c.activate (moment x now)).phase =
          .awaitingEnd ⟨c.brief.settings.ending, now, 1⟩ .answer) ∨
      (∃ plan, c.brief.plan = some plan ∧ (c.activate (moment x now)).phase = .onward plan) ∨
      ∃ o elapsed, (c.activate (moment x now)).phase = .terminated o elapsed := by
  unfold activate
  dsimp only
  split
  · rename_i hplan
    rcases awaitEnd_cases x now (c.enter .active) with hawait | hover
    · exact .inl ⟨hplan, hawait⟩
    · exact .inr (.inr hover)
  · rename_i plan hplan
    exact .inr (.inl ⟨plan, hplan, phase_proceed _ plan⟩)

theorem leads_of_cases {p' q : Phase} (live : p.isOver = false)
    (h : (x.reached now = false ∧ p' = q) ∨ ∃ o elapsed, p' = .terminated o elapsed)
    (hq : x.reached now = false → Leads b x now p e q) : Leads b x now p e p' := by
  rcases h with ⟨hfree, rfl⟩ | ⟨o, elapsed, rfl⟩
  · exact hq hfree
  · exact .finish live e o elapsed

/-! ## Answers -/

section Answers

variable {loop : Retry}

theorem leads_start :
    Leads b x now .fresh .started ((ofBrief b).advance (moment x now) .started).phase := by
  rw [advance_fresh rfl]
  unfold start
  dsimp only
  split
  · exact leads_of_cases rfl (join_cases _ _ _) (.join (.inl ⟨rfl, rfl⟩) ·)
  · rename_i limit hlimit
    cases hpool : b.pool.endpoints with
    | nil =>
      rw [show (ofBrief b).brief.pool.endpoints = [] from hpool]
      exact leads_of_cases rfl (join_cases _ _ _) (.join (.inl ⟨rfl, rfl⟩) ·)
    | cons endpoint rest =>
      rw [show (ofBrief b).brief.pool.endpoints = endpoint :: rest from hpool]
      exact .probe hlimit hpool

theorem leads_joined (hphase : c.phase = .joining loop .answer) (a : Except JoinError Unit) :
    Leads c.brief x t (.joining loop .answer) (.joined a)
      (c.advance (moment x t) (.joined a)).phase := by
  rw [advance_joining_answer hphase]
  cases a with
  | ok => exact leads_of_cases rfl (awaitBegin_cases _ _ _) (.admitted loop)
  | error error =>
    unfold joinAnswer
    dsimp only
    split
    · unfold Retry.answered
      dsimp only
      split
      · exact .finish rfl _ _ _
      · exact .joinPause loop error (Bool.eq_false_iff.mpr ‹_›)
    · exact .finish rfl _ _ _

theorem leads_activate (c : Coordinator) (a : Except String Status) :
    Leads c.brief x t (.awaitingBegin loop .answer) (.status a)
      (c.activate (moment x t)).phase := by
  rcases activate_cases x t c with
    ⟨hplan, hfree, hidle⟩ | ⟨plan, hplan, hdepart⟩ | ⟨o, elapsed, hover⟩
  · exact hidle ▸ .idle loop a hplan hfree
  · exact hdepart ▸ .depart loop a plan hplan
  · exact hover ▸ .finish rfl _ o elapsed

theorem leads_polled (hphase : c.phase = .awaitingBegin loop .answer) (a : Except String Status) :
    Leads c.brief x t (.awaitingBegin loop .answer) (.status a)
      (c.advance (moment x t) (.status a)).phase := by
  rw [advance_awaitingBegin_answer hphase]
  unfold Retry.answered
  split
  · exact leads_activate { c with began := true } a
  · rename_i reason _
    cases reason <;> exact .finish rfl _ _ _
  · split
    · exact leads_activate c a
    · exact .beginPause loop a (Bool.eq_false_iff.mpr ‹_›)

theorem leads_awaited (hphase : c.phase = .awaitingEnd loop .answer) (s : Status) :
    Leads c.brief x t (.awaitingEnd loop .answer) (.status (.ok s))
      (c.advance (moment x t) (.status (.ok s))).phase := by
  rw [advance_awaitingEnd_answer hphase]
  cases hrun : s.isRunning with
  | false =>
    simp only [Bool.not_false, Retry.pollAnswer, Retry.answered, endMove, Retry.Outcome.poll]
    split <;> exact .finish rfl _ _ _
  | true =>
    simp only [Bool.not_true, Retry.pollAnswer, Retry.answered]
    split
    · exact .finish rfl _ _ _
    · exact .endPause loop s hrun

theorem leads_checked (c : Coordinator) (rest : List Action) (s : Status) :
    Leads c.brief x t (.checking rest) (.status (.ok s)) (c.checked (moment x t) rest s).phase := by
  unfold checked
  dsimp only
  split
  · rw [phase_proceed]
    exact .proceed rest _
  · split
    · rename_i hlast
      obtain ⟨-, rfl⟩ : (c.notice s).began ∧ rest = [] := by simpa using hlast
      exact leads_of_cases rfl (awaitEnd_cases _ _ _) (.delivered _)
    · split <;> exact .finish rfl _ _ _

end Answers

theorem Told.leads {calls : List Exchange} (h : Told b x now c.phase e t calls)
    (hbrief : c.brief = b) : Leads b x t c.phase e (c.advance (moment x t) e).phase := by
  subst hbrief
  generalize hphase : c.phase = p at h ⊢
  cases h with
  | probed _ limit endpoint rest reachable =>
    rw [advance_probing hphase]
    cases rest with
    | nil =>
      exact leads_of_cases rfl (join_cases _ _ _)
        (.join (.inr ⟨limit, endpoint, reachable, rfl, rfl⟩) ·)
    | cons next rest => exact .probeNext limit endpoint next rest reachable
  | joined _ loop a => exact leads_joined hphase a
  | joinPause loop =>
    rw [advance_joining_pause hphase]
    unfold moment
    rcases woken_nap x now loop loop.policy.interval with ⟨-, hwoken⟩ | ⟨hfree, hwoken⟩
    · rw [hwoken]
      exact .finish rfl _ _ _
    · rw [hwoken]
      exact .rejoin loop _ hfree
  | polled _ loop a => exact leads_polled hphase a
  | beginPause loop =>
    rw [advance_awaitingBegin_pause hphase]
    unfold moment
    rcases woken_nap x now loop loop.policy.interval with ⟨-, hwoken⟩ | ⟨hfree, hwoken⟩
    · rw [hwoken]
      exact .finish rfl _ _ _
    · rw [hwoken]
      exact .beginPoll loop _ hfree
  | sent _ a rest answer =>
    cases answer with
    | error reason =>
      rw [advance_sending_failed hphase]
      exact .finish rfl _ _ _
    | ok =>
      rw [advance_sending hphase]
      unfold commandSent
      dsimp only
      split
      · exact .observe a rest _
      · exact .pace a rest _
  | observed _ a rest o =>
    rw [advance_observing hphase]
    exact .publish a rest o _
  | published snapshot rest =>
    rw [advance_publishing hphase]
    exact .published snapshot rest
  | paced rest =>
    cases hrested : (x.nap now c.brief.settings.pacing).rested with
    | false =>
      rw [advance_pacing_cut hphase]
      exact .finish rfl _ _ _
    | true =>
      rw [advance_pacing hphase]
      exact .check rest
  | checked _ rest a =>
    cases a with
    | error reason =>
      rw [advance_checking_failed hphase]
      exact .finish rfl _ _ _
    | ok s =>
      rw [advance_checking hphase]
      exact leads_checked c rest s
  | quit _ answer =>
    cases answer with
    | error reason =>
      rw [advance_quitting_failed hphase]
      exact .finish rfl _ _ _
    | ok =>
      rw [advance_quitting hphase]
      exact leads_of_cases rfl (awaitEnd_cases _ _ _) (.quit _)
  | awaited _ loop a =>
    cases a with
    | error reason =>
      rw [advance_awaitingEnd_failed hphase]
      exact .finish rfl _ _ _
    | ok s => exact leads_awaited hphase s
  | endPause loop =>
    rw [advance_awaitingEnd_pause hphase]
    unfold moment
    rcases woken_nap x now loop loop.policy.interval with ⟨-, hwoken⟩ | ⟨hfree, hwoken⟩
    · rw [hwoken]
      exact .finish rfl _ _ _
    · rw [hwoken]
      exact .endPoll loop _ hfree

theorem Told.le {calls : List Exchange} (h : Told b x now p e t calls) : now ≤ t := by
  cases h with
  | published => exact Nat.le_refl now
  | joinPause | beginPause | paced | endPause => exact Cancellation.le_wokenAt_nap ..
  | _ => assumption

theorem startedAt_start : ((ofBrief b).advance (moment x now) .started).startedAt = now := by
  rw [advance_fresh rfl]
  exact (runs_start (m := moment x now) rfl).startedAt

theorem startedAt_advance {request : Request} {m : Moment} (asked : c.request = some request)
    (e : Event) : (c.advance m e).startedAt = c.startedAt := by
  have hfresh : c.phase ≠ .fresh := by
    intro hphase
    rw [Coordinator.request, hphase] at asked
    cases asked
  exact (runs_advance ⟨rfl, rfl, List.prefix_rfl⟩ hfresh e).startedAt

theorem History.startedAt_le {log : List Exchange} (h : History b x log c now) :
    c.startedAt ≤ now := by
  induction h with
  | start now => exact Nat.le_of_eq startedAt_start
  | goOn h asked answered ih =>
    rw [startedAt_advance asked]
    exact Nat.le_trans ih (answered.told h.stands.brief asked).le

theorem Leads.joinPolicy {loop : Retry} {wait : Retry.Wait}
    (h : Leads b x now p e (.joining loop wait))
    (hp : ∀ loop wait, p = .joining loop wait → loop.policy = b.settings.joining) :
    loop.policy = b.settings.joining := by
  generalize hp' : Phase.joining loop wait = p' at h
  cases h with
  | join =>
    cases hp'
    rfl
  | joinPause loop | rejoin loop =>
    cases hp'
    exact hp loop _ rfl
  | depart _ _ plan => cases plan <;> cases hp'
  | proceed rest => cases rest <;> cases hp'
  | _ => cases hp'

theorem Leads.of_endPause {loop : Retry} (h : Leads b x now p e (.awaitingEnd loop .pause)) :
    p = .awaitingEnd loop .answer ∧ ∃ s : Status, e = .status (.ok s) ∧ s.isRunning := by
  generalize hp' : Phase.awaitingEnd loop .pause = p' at h
  cases h with
  | endPause loop s running =>
    cases hp'
    exact ⟨rfl, s, rfl, running⟩
  | depart _ _ plan => cases plan <;> cases hp'
  | proceed rest => cases rest <;> cases hp'
  | _ => cases hp'

/-- The role has not come to its session yet. -/
def Phase.isEarly : Phase → Bool
  | .fresh | .probing _ _ _ | .joining _ _ => true
  | _ => false

theorem isEarly_onward (plan : List Action) : (Phase.onward plan).isEarly = false := by
  cases plan <;> rfl

theorem Leads.isEarly (h : Leads b x now p e p') (hp' : p'.isEarly) :
    p.isEarly ∧ e ≠ .joined (.ok ()) := by
  cases h with
  | probe | probeNext | joinPause | rejoin => exact ⟨rfl, by simp⟩
  | join early =>
    rcases early with ⟨rfl, rfl⟩ | ⟨limit, endpoint, reachable, rfl, rfl⟩ <;>
      exact ⟨rfl, by simp⟩
  | depart _ _ plan => rw [isEarly_onward] at hp'; cases hp'
  | proceed rest => rw [isEarly_onward] at hp'; cases hp'
  | _ => cases hp'

theorem isEarly_of_request {c : Coordinator} (h : c.request = some .join) : c.phase.isEarly := by
  unfold Coordinator.request at h
  split at h <;> cases h
  rename_i hphase
  rw [hphase]
  rfl

end Labyrinth.Coordinator

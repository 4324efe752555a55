import Labyrinth.Proofs.Launch.Moves
import Labyrinth.Proofs.Timeline.Step

/-!
# Requests in a rendezvous

When a role makes a request of a rendezvous, it gets an answer for which a role may wait, and the
other roles are not disturbed.
-/

namespace Labyrinth

open Coordinator Engine Timeline

namespace Rendezvous

variable {R : Rendezvous} {r : Role} {c : Coordinator} {now : Nat} {session? : Option Session}
  {s : Session} {w : World}

/-! ## The clock -/

/-- What the time tells about the session at any moment. -/
structure Timely (R : Rendezvous) (now : Nat) (session? : Option Session) : Prop where
  late : (World.agent? session? .creator).isSome → R.latency ≤ now
  begun : ∀ b, session?.bind (·.begunAt) = some b → b ≤ now

/-- What the time tells about the session when a role goes on. -/
structure Clock (R : Rendezvous) (now : Nat) (session? : Option Session) : Prop
    extends R.Timely now session? where
  early : World.agent? session? .creator = none → now ≤ R.latency
  meeting : session?.bind (·.begunAt) = none → now ≤ R.joinedBy
  running : session?.any (·.ended) = false → now ≤ R.quitBy

abbrev Holds (R : Rendezvous) (w : World) (session? : Option Session) : Prop :=
  w.Shares R.engine R.launch.session R.size session?

/-! ## Tracks -/

def Stands (R : Rendezvous) (r : Role) (o : Sight) (now : Nat) (t : Track World.Pending) : Prop :=
  match t.state with
  | .waiting time _ due => now ≤ time ∧ R.Waiting r o t.coordinator time due
  | .ended report => R.Ended r o report

def trackLeft (R : Rendezvous) (t : Track World.Pending) : Nat :=
  match t.state with
  | .waiting time _ _ => R.left t.coordinator.phase time
  | .ended _ => 0

theorem left_le {p : Phase} {t t' : Nat} (h : t ≤ t') : R.left p t' ≤ R.left p t := by
  unfold Rendezvous.left
  omega

/-- The role has got its track and left its world, in which the session is the given one. -/
structure Served (R : Rendezvous) (r : Role) (c : Coordinator) (now : Nat)
    (session? session?' : Option Session) (a : Track World.Pending × World) : Prop where
  holds : R.Holds a.2 session?'
  timely : R.Timely now session?'
  later : ∀ r', r' ≠ r → R.Later r' (sight session? r') (sight session?' r')
  stands : R.Stands r (sight session?' r) now a.1
  left : R.trackLeft a.1 ≤ R.left c.phase (now + pauses c.phase)

/-! ## Changes of the session -/

theorem later_checkTime (r : Role) :
    R.Later r (sight (some s) r) (sight (some (s.checkTime R.limit now)) r) where
  created _ := rfl
  agent := rfl
  begun _ := id
  ended h := by
    change (s.ended || _) = true
    rw [show s.ended = true from h, Bool.true_or]
  running hlimit _ := by
    change (s.ended || s.isOver R.limit now) = s.ended
    rw [hlimit]
    unfold Session.isOver
    split <;> simp_all

theorem Timely.checkTime (h : R.Timely now (some s)) :
    R.Timely now (some (s.checkTime R.limit now)) :=
  ⟨h.late, h.begun⟩

theorem later_setPose {r' : Role} {p : Pose} (hne : r' ≠ r) :
    R.Later r' (sight (some s) r') (sight (some ((s.checkTime R.limit now).setPose r p)) r') :=
  { later_checkTime r' with
    agent := by
      change ((s.checkTime R.limit now).setPose r p).agent? r' = s.agent? r'
      rw [Session.agent?_setPose, if_neg hne]
      rfl }

theorem Timely.setPose {p : Pose} (h : R.Timely now (some s)) :
    R.Timely now (some ((s.checkTime R.limit now).setPose r p)) where
  late hsome := by
    rw [World.agent?, Option.bind_some, Session.isSome_agent?_setPose] at hsome
    exact h.late hsome
  begun := h.begun

theorem later_enrol {r' : Role} {p : Pose} (hne : r' ≠ r) :
    R.Later r' (sight (some s) r') (sight (some (s.enrol r p now)) r') where
  created _ := rfl
  agent := by
    change (s.enrol r p now).agent? r' = s.agent? r'
    rw [Session.agent?_enrol, if_neg hne]
  begun _ hb := Session.begunAt_enrol hb
  ended := id
  running _ _ := rfl

theorem timely_enrol {p : Pose} (hlate : R.latency ≤ now) (h : R.Timely now (some s)) :
    R.Timely now (some (s.enrol r p now)) where
  late _ := hlate
  begun b hb := by
    cases hs : s.begunAt with
    | some b' =>
      exact h.begun b (hs.trans ((Session.begunAt_enrol hs).symm.trans hb))
    | none =>
      change (s.begunAt <|> _) = some b at hb
      rw [hs] at hb
      change (if _ then some now else none) = some b at hb
      split at hb
      · exact Nat.le_of_eq (Option.some.inj hb).symm
      · cases hb

theorem sub_lt_of_isOver_eq_false {b d : Nat} {limit : Option Nat} (hb : s.begunAt = some b)
    (hd : d ∈ limit) (h : s.isOver limit now = false) : now - b < d := by
  obtain rfl : limit = some d := hd
  simpa [Session.isOver, hb] using h

theorem isRunning_of_course {rest : List Action} (hlimit : R.limit = none)
    (h : R.Course (sight (some s) r) rest) (hb : s.begunAt.isSome) :
    (s.checkTime R.limit now).isRunning := by
  refine Session.isRunning_checkTime.mpr ⟨hb, (h hlimit).1, ?_⟩
  rw [hlimit]
  unfold Session.isOver
  split <;> simp_all

theorem ended_of_stopped (hb : s.begunAt.isSome) (h : ¬ (s.checkTime R.limit now).isRunning) :
    (s.checkTime R.limit now).ended := by
  simp only [Session.isRunning, Bool.and_eq_true, Bool.not_eq_true', not_and,
    Bool.not_eq_false] at h
  exact h hb

/-! ## Naps -/

theorem served_nap {span : Nat} {t : Track World.Pending} {o : Nat} (hw : R.Holds w session?)
    (hclock : R.Timely now session?) (hrequest : c.request = some (.nap span))
    (hspan : pauses c.phase ≤ span)
    (h : R.Waiting r (sight session? r) c (now + span) (.event (.woken true))) :
    R.Served r c now session? session?
      (World.surroundings.follow R.launch.cancellation t c now w o) := by
  rw [Surroundings.follow_nap hrequest, R.reachable.cancellation]
  exact {
    holds := hw
    timely := hclock
    later := fun _ _ => .refl _
    stands := ⟨Nat.le_add_right _ _, h⟩
    left := left_le (Nat.add_le_add_left hspan _) }

theorem Walking.paced {o : Sight} {rest : List Action} (h : R.Walking r o c rest 1 now)
    (sent : 0 < c.commandsSent) : R.Walking r o c rest 0 (now + R.settings.pacing) :=
  { h with
    time := by
      have := h.time
      rw [Nat.succ_mul] at this
      rw [Nat.add_zero]
      omega
    begun := by
      obtain ⟨b, hb, hle⟩ := h.begun
      refine ⟨b, hb, ?_⟩
      obtain ⟨k, hk⟩ : ∃ k, c.commandsSent = k + 1 := ⟨c.commandsSent - 1, by omega⟩
      rw [hk, Nat.add_sub_cancel] at hle
      rw [hk, Nat.sub_zero, Nat.succ_mul]
      omega }

/-! ## Answers -/

section Answers

variable {session?' : Option Session} {w' : World} {request : Request} {t : Track World.Pending}
  {o : Nat}

theorem served_event {e : Event} (hrequest : c.request = some request)
    (hnap : ∀ span, request ≠ .nap span) (hbrief : c.brief = R.brief r)
    (htake : World.take (R.brief r) request now w = (.event e, w'))
    (hholds : R.Holds w' session?') (htimely : R.Timely now session?')
    (hlater : ∀ r', r' ≠ r → R.Later r' (sight session? r') (sight session?' r'))
    (hphase : pauses c.phase = 0) (h : R.Waiting r (sight session?' r) c now (.event e)) :
    R.Served r c now session? session?'
      (World.surroundings.follow R.launch.cancellation t c now w o) := by
  rw [Surroundings.follow_event hrequest hnap (by rw [hbrief]; exact htake)]
  exact ⟨hholds, htimely, hlater, ⟨Nat.le_refl _, h⟩, by rw [hphase]; exact Nat.le_refl _⟩

theorem served_create (h : R.Outside r (sight session? r) c) (role : r = .creator)
    (hphase : c.phase = .joining ⟨R.settings.joining, 0, 1⟩ .answer)
    (created : (sight session? r).created = false) (time : now = 0)
    (hw : R.Holds w session?) (hr : r.number < R.size) :
    ∃ session?', R.Served r c now session? session?'
      (World.surroundings.follow R.launch.cancellation t c now w o) := by
  obtain rfl : session? = none := Option.not_isSome_iff_eq_none.mp (by simpa [sight] using created)
  have hrequest : c.request = some .join := by rw [request, hphase]
  obtain ⟨w', htake, hholds⟩ := World.take_create (b := R.brief r) now hw rfl hr
    R.reachable.scene R.reachable.pool role rfl
  refine ⟨some (.ofExpected R.size), ?_⟩
  rw [Surroundings.follow_later hrequest nofun (by rw [h.brief]; exact htake)]
  refine ⟨hholds, ⟨nofun, nofun⟩, fun r' hr' => ?_, ⟨Nat.le_add_right _ _, ?_⟩, ?_⟩
  · exact ⟨fun hc => absurd (hc.trans role.symm) hr', rfl, nofun, nofun, fun _ _ => rfl⟩
  · refine .creating ⟨h.brief, rfl, h.sent, fun _ _ => rfl⟩ role hphase rfl ?_
    rw [time, Nat.zero_add]
    rfl
  · have hzero : pauses c.phase = 0 := by rw [hphase]; rfl
    exact left_le (by rw [hzero]; exact Nat.add_le_add_left (Nat.zero_le _) _)

theorem Outside.inside (h : R.Outside r (sight (some s) r) c) (now : Nat)
    (attempts : r = .creator → c.joinAttempts = 1) :
    R.Inside r (sight (some (s.enrol r (R.engine.spawn r) now)) r) c := by
  have hagent : (s.enrol r (R.engine.spawn r) now).agent? r = some (R.engine.spawn r) := by
    rw [Session.agent?_enrol, if_pos rfl]
  exact {
    brief := h.brief
    agent := Option.isSome_of_eq_some hagent
    sent := h.sent
    attempts := attempts
    course := fun hr hlimit => ⟨h.running hlimit hr, R.engine.spawn r, hagent, hr ▸ rfl⟩ }

theorem served_join {loop : Retry} (h : R.Outside r (sight session? r) c) (role : r ≠ .creator)
    (hphase : c.phase = .joining loop .answer) (policy : loop.policy = R.settings.joining)
    (start : loop.startedAt = R.launch.settings.stagger) (time : now ≤ R.joinedBy)
    (hw : R.Holds w session?) (hclock : R.Clock now session?) (hr : r.number < R.size) :
    ∃ session?', R.Served r c now session? session?'
      (World.surroundings.follow R.launch.cancellation t c now w o) := by
  have hrequest : c.request = some .join := by rw [request, hphase]
  by_cases havail : ∃ s ∈ session?, s.available
  · obtain ⟨s, rfl, havail⟩ := havail
    obtain ⟨w', htake, hholds⟩ := World.take_join_admitted (b := R.brief r) now hw rfl hr
      R.reachable.scene R.reachable.pool role rfl havail h.agent
    have hlate : R.latency ≤ now := hclock.late (((hw.sound s rfl).available).mp havail)
    have hinside := h.inside now fun hc => absurd hc role
    exact ⟨_, served_event hrequest nofun h.brief htake hholds (timely_enrol hlate hclock.toTimely)
      (fun _ hne => later_enrol hne) (by rw [hphase]; rfl)
      (.admitted loop hinside role hphase hlate time)⟩
  · have havail : ∀ s ∈ session?, s.available = false := fun s hs =>
      Bool.eq_false_iff.mpr fun ha => havail ⟨s, hs, ha⟩
    obtain ⟨w', htake, hholds⟩ := World.take_join_refused (b := R.brief r) now hw rfl hr
      R.reachable.scene R.reachable.pool role havail
    have hcreator : World.agent? session? .creator = none := by
      cases session? with
      | none => rfl
      | some s =>
        have hiff := (hw.sound s rfl).available
        rw [havail s rfl] at hiff
        exact Option.not_isSome_iff_eq_none.mp fun hsome => Bool.noConfusion (hiff.mpr hsome)
    exact ⟨session?, served_event hrequest nofun h.brief htake hholds hclock.toTimely
      (fun _ _ => .refl _) (by rw [hphase]; rfl)
      (.refused loop h role hphase policy start (hclock.early hcreator) _)⟩

/-! ## Answers inside the session -/

theorem exists_session (h : (sight session? r).agent.isSome) :
    ∃ s, session? = some s ∧ (s.agent? r).isSome := by
  cases session? with
  | none => cases h
  | some s => exact ⟨s, rfl, h⟩

theorem served_status (hin : (s.agent? r).isSome) (hrequest : c.request = some .status)
    (hbrief : c.brief = R.brief r) (hw : R.Holds w (some s)) (hclock : R.Timely now (some s))
    (hr : r.number < R.size) (hphase : pauses c.phase = 0)
    (h : R.Waiting r (sight (some (s.checkTime R.limit now)) r) c now
      (.event (.status (.ok ⟨s.begunAt.isSome, (s.checkTime R.limit now).isRunning⟩)))) :
    ∃ session?', R.Served r c now (some s) session?'
      (World.surroundings.follow R.launch.cancellation t c now w o) := by
  obtain ⟨w', htake, hholds⟩ := World.take_status (b := R.brief r) now hw rfl hr hin
  exact ⟨_, served_event hrequest nofun hbrief htake hholds hclock.checkTime
    (fun r' _ => later_checkTime r') hphase h⟩

theorem served_poll {loop : Retry} (h : R.Inside r (sight session? r) c)
    (hphase : c.phase = .awaitingBegin loop .answer)
    (policy : loop.policy = R.settings.beginning) (start : R.latency ≤ loop.startedAt)
    (time : now ≤ R.joinedBy + R.settings.beginning.interval)
    (hw : R.Holds w session?) (hclock : R.Clock now session?) (hr : r.number < R.size) :
    ∃ session?', R.Served r c now session? session?'
      (World.surroundings.follow R.launch.cancellation t c now w o) := by
  obtain ⟨s, rfl, hin⟩ := exists_session h.agent
  refine served_status hin (by rw [request, hphase]) h.brief hw hclock.toTimely hr
    (by rw [hphase]; rfl) (.polled loop (h.later (later_checkTime r)) hphase policy start time _
      (fun hbegun => ?_) fun hbegun => ?_)
  · obtain ⟨b, hb⟩ := Option.isSome_iff_exists.mp hbegun
    exact ⟨b, hb, hclock.begun b hb⟩
  · exact hclock.meeting (Option.not_isSome_iff_eq_none.mp (Bool.eq_false_iff.mp hbegun))

theorem served_check {rest : List Action} (h : R.Walking r (sight session? r) c rest 0 now)
    (sent : 0 < c.commandsSent) (hphase : c.phase = .checking rest) (hw : R.Holds w session?)
    (hclock : R.Clock now session?) (hr : r.number < R.size) :
    ∃ session?', R.Served r c now session? session?'
      (World.surroundings.follow R.launch.cancellation t c now w o) := by
  obtain ⟨s, rfl, hin⟩ := exists_session h.agent
  obtain ⟨b, hb, hle⟩ := h.begun
  have hbegun : s.begunAt.isSome := Option.isSome_of_eq_some hb
  refine served_status hin (by rw [request, hphase]) h.brief hw hclock.toTimely hr
    (by rw [hphase]; rfl) (.checked rest (h.later (later_checkTime r)) sent hphase _ hbegun
      (fun hrun d hd => ?_) fun hstop => ⟨?_, ?_⟩)
  · have hlt := sub_lt_of_isOver_eq_false hb hd (Session.isRunning_checkTime.mp hrun).2.2
    rw [Nat.sub_zero] at hle
    omega
  · exact ended_of_stopped hbegun (Bool.eq_false_iff.mp hstop)
  · refine Option.isSome_iff_ne_none.mpr fun hlimit => Bool.eq_false_iff.mp hstop ?_
    exact isRunning_of_course hlimit h.course hbegun

theorem served_await {loop : Retry} (h : R.Ending r (sight session? r) c)
    (hphase : c.phase = .awaitingEnd loop .answer) (policy : loop.policy = R.settings.ending)
    (time : now ≤ R.overBy) (hw : R.Holds w session?) (hclock : R.Clock now session?)
    (hr : r.number < R.size) :
    ∃ session?', R.Served r c now session? session?'
      (World.surroundings.follow R.launch.cancellation t c now w o) := by
  obtain ⟨s, rfl, hin⟩ := exists_session h.agent
  refine served_status hin (by rw [request, hphase]) h.brief hw hclock.toTimely hr
    (by rw [hphase]; rfl) (.awaited loop (h.later (later_checkTime r)) hphase policy time _
      fun hrun => ?_)
  have hend := (Session.isRunning_checkTime.mp hrun).2.1
  refine ⟨fun hr => ?_, hclock.running hend⟩
  have hended : s.ended = true := (h.walked hr).1
  rw [hend] at hended
  cases hended

/-! ## Commands -/

theorem served_stopped {token : String} (hin : (s.agent? r).isSome)
    (hrequest : c.request = some (.send token)) (hbrief : c.brief = R.brief r)
    (hw : R.Holds w (some s)) (hclock : R.Timely now (some s)) (hr : r.number < R.size)
    (hphase : pauses c.phase = 0) (hstop : ¬ (s.checkTime R.limit now).isRunning)
    (h : R.Waiting r (sight (some (s.checkTime R.limit now)) r) c now
      (.event (.sent (.ok ())))) :
    ∃ session?', R.Served r c now (some s) session?'
      (World.surroundings.follow R.launch.cancellation t c now w o) := by
  obtain ⟨w', htake, hholds⟩ := World.take_send_stopped (b := R.brief r) now hw rfl hr hin
    token hstop
  exact ⟨_, served_event hrequest nofun hbrief htake hholds hclock.checkTime
    (fun r' _ => later_checkTime r') hphase h⟩

theorem Walking.counted {o : Sight} {a : Action} {rest : List Action}
    (h : R.Walking r o c (a :: rest) 0 now)
    (limit : ∀ d ∈ R.limit, 0 < c.commandsSent → c.commandsSent * R.settings.pacing < d)
    {o' : Sight} (agent : o'.agent.isSome) (begun : o'.begunAt = o.begunAt)
    (course : R.Course o' rest) : R.Walking r o' (counted c) rest 1 now where
  brief := h.brief
  agent := agent
  attempts := h.attempts
  walker := h.walker
  began := h.began
  sent := by
    have := h.sent
    rw [List.length_cons] at this
    change c.commandsSent + 1 + _ = _
    omega
  course := course
  time := h.time
  begun := begun ▸ h.begun
  limit d hd hlt := limit d hd (Nat.lt_of_succ_lt_succ hlt)

theorem served_send {a : Action} {rest : List Action}
    (h : R.Walking r (sight session? r) c (a :: rest) 0 now) (hphase : c.phase = .sending a rest)
    (limit : ∀ d ∈ R.limit, 0 < c.commandsSent → c.commandsSent * R.settings.pacing < d)
    (hw : R.Holds w session?) (hclock : R.Clock now session?) (hr : r.number < R.size) :
    ∃ session?', R.Served r c now session? session?'
      (World.surroundings.follow R.launch.cancellation t c now w o) := by
  obtain ⟨s, rfl, hin⟩ := exists_session h.agent
  obtain ⟨b, hb, -⟩ := h.begun
  have hbegun : s.begunAt.isSome := Option.isSome_of_eq_some hb
  have hrequest : c.request = some (.send a.command.token) := by rw [request, hphase]
  have hpause : pauses c.phase = 0 := by rw [hphase]; rfl
  by_cases hrun : (s.checkTime R.limit now).isRunning
  · obtain ⟨p, hp⟩ := Option.isSome_iff_exists.mp hin
    obtain ⟨w', htake, hholds⟩ := World.take_send_running (b := R.brief r) now hw rfl hr hin
      a.command hp hrun
    have hagent : ((s.checkTime R.limit now).setPose r (R.engine.moved p a.command)).agent? r =
        some (R.engine.moved p a.command) := by
      rw [Session.agent?_setPose, if_pos rfl]
      exact congrArg (Option.map _) hp
    have hin' := Option.isSome_of_eq_some hagent
    refine ⟨_, served_event hrequest nofun h.brief htake hholds hclock.setPose
      (fun _ hne => later_setPose hne) hpause
      (.sent a rest (h.counted limit hin' rfl fun hlimit => ?_) hphase)⟩
    obtain ⟨hend, q, hq, hgoal⟩ := h.course hlimit
    obtain rfl : p = q := Option.some.inj (hp.symm.trans hq)
    exact ⟨((later_checkTime r).running hlimit h.walker).trans hend, _, hagent, hgoal⟩
  · refine served_stopped hin hrequest h.brief hw hclock.toTimely hr hpause hrun
      (.sent a rest (h.counted limit hin rfl fun hlimit => ?_) hphase)
    exact absurd (isRunning_of_course hlimit h.course hbegun) hrun

theorem served_quit (h : R.Walking r (sight session? r) c [] 0 now) (hphase : c.phase = .quitting)
    (hw : R.Holds w session?) (hclock : R.Clock now session?) (hr : r.number < R.size) :
    ∃ session?', R.Served r c now session? session?'
      (World.surroundings.follow R.launch.cancellation t c now w o) := by
  obtain ⟨s, rfl, hin⟩ := exists_session h.agent
  obtain ⟨b, hb, -⟩ := h.begun
  have hbegun : s.begunAt.isSome := Option.isSome_of_eq_some hb
  have hrequest : c.request = some (.send Command.quitToken) := by rw [request, hphase]
  have hpause : pauses c.phase = 0 := by rw [hphase]; rfl
  have hending : ∀ o' : Sight, o'.agent = (sight (some s) r).agent → o'.ended →
      R.Ending r o' (counted c) := fun o' hagent hended => {
    brief := h.brief
    agent := hagent ▸ h.agent
    attempts := h.attempts
    began := h.began
    idle := fun hr => absurd h.walker hr
    walked := fun _ => by
      have hsent : c.commandsSent = R.actions.length := h.sent
      refine ⟨hended, .inr (congrArg (· + 1) hsent), fun hlimit => ⟨congrArg (· + 1) hsent, ?_⟩⟩
      obtain ⟨-, p, hp, hgoal⟩ := h.course hlimit
      rw [hagent, hp]
      exact congrArg some hgoal }
  by_cases hrun : (s.checkTime R.limit now).isRunning
  · obtain ⟨w', htake, hholds⟩ := World.take_quit_running (b := R.brief r) now hw rfl hr hin
      hrun
    refine ⟨_, served_event hrequest nofun h.brief htake hholds ⟨hclock.late, hclock.begun⟩
      (fun r' hne => ?_) hpause (.quit (hending _ rfl rfl) h.walker hphase h.le_quitBy)⟩
    exact ⟨fun _ => rfl, rfl, fun _ => id, fun _ => rfl,
      fun _ hr' => absurd (hr'.trans h.walker.symm) hne⟩
  · exact served_stopped hin hrequest h.brief hw hclock.toTimely hr hpause hrun
      (.quit (hending _ rfl (ended_of_stopped hbegun hrun)) h.walker hphase h.le_quitBy)

end Answers

theorem Ready.served (h : R.Ready r (sight session? r) c now) (hw : R.Holds w session?)
    (hclock : R.Clock now session?) (hr : r.number < R.size) (t : Track World.Pending) (o : Nat) :
    ∃ session?', R.Served r c now session? session?'
      (World.surroundings.follow R.launch.cancellation t c now w o) := by
  cases h with
  | create h role phase created time => exact served_create h role phase created time hw hr
  | join loop h role phase policy start time =>
    exact served_join h role phase policy start time hw hclock hr
  | joinPause loop h role phase policy start time =>
    have hinterval : 0 < R.settings.joining.interval := R.reachable.joinInterval
    exact ⟨_, served_nap hw hclock.toTimely (by rw [← policy, request, phase])
      (by rw [phase]; exact hinterval)
      (.joinPause loop h role phase policy start (Nat.add_le_add_right time _))⟩
  | poll loop h phase policy start time => exact served_poll h phase policy start time hw hclock hr
  | pollPause loop h phase policy start time =>
    have hinterval : 0 < R.settings.beginning.interval := R.reachable.beginInterval
    exact ⟨_, served_nap hw hclock.toTimely (by rw [← policy, request, phase])
      (by rw [phase]; exact hinterval)
      (.pollPause loop h phase policy start (Nat.add_le_add_right time _))⟩
  | send a rest h phase limit => exact served_send h phase limit hw hclock hr
  | observe a rest h sent phase =>
    obtain ⟨s, rfl, -⟩ := exists_session h.agent
    have hrequest : c.request = some .observe := by rw [request, phase]
    obtain ⟨answer, htake⟩ := World.take_observe (b := R.brief r) now hw hr
    exact ⟨_, served_event hrequest nofun h.brief htake hw hclock.toTimely
      (fun _ _ => .refl _) (by rw [phase]; rfl) (.observed a rest h sent phase answer)⟩
  | publish snapshot rest h sent phase =>
    obtain ⟨s, rfl, -⟩ := exists_session h.agent
    have hrequest : c.request = some (.publish snapshot) := by rw [request, phase]
    obtain ⟨w', htake, hholds⟩ := World.take_publish (b := R.brief r) now hw snapshot
    exact ⟨_, served_event hrequest nofun h.brief htake hholds hclock.toTimely
      (fun _ _ => .refl _) (by rw [phase]; rfl) (.published snapshot rest h sent phase)⟩
  | pace rest h sent phase =>
    have hspan : c.brief.settings.pacing = R.settings.pacing := by rw [h.brief]; rfl
    exact ⟨_, served_nap hw hclock.toTimely (by rw [← hspan, request, phase])
      (by rw [phase]; exact Nat.zero_le _) (.paced rest (h.paced sent) sent phase)⟩
  | check rest h sent phase => exact served_check h sent phase hw hclock hr
  | quit h phase => exact served_quit h phase hw hclock hr
  | await loop h phase policy time => exact served_await h phase policy time hw hclock hr
  | awaitPause loop h role phase policy time =>
    have hinterval : 0 < R.settings.ending.interval := R.reachable.endInterval
    exact ⟨_, served_nap hw hclock.toTimely (by rw [← policy, request, phase])
      (by rw [phase]; exact hinterval)
      (.awaitPause loop h role phase policy (Nat.add_le_add_right time _))⟩
  | ended report report? h =>
    rw [Surroundings.follow_report report?]
    exact ⟨session?, hw, hclock.toTimely, fun _ _ => .refl _, h, Nat.zero_le _⟩

end Rendezvous

end Labyrinth

import Labyrinth.Launch.Basic
import Labyrinth.Proofs.Coordinator.Standing
import Labyrinth.Proofs.Timeline.Service

/-!
# Chronicles

A chronicle keeps the log of every role while a launch goes on. It ties together what the roles were
told and what became of their session, and every launch has one.
-/

namespace Labyrinth

open Coordinator Engine Timeline StateTransition Room

/-- A launch against an engine that has no session for it yet. -/
structure Venture where
  launch : Launch
  engine : Engine
  network : Network
  tracked : Bool
  unused : engine.session? launch.session = none

namespace Venture

variable (V : Venture)

def brief (r : Role) : Brief := V.launch.brief V.tracked r

def cancellation : Cancellation := V.launch.cancellation

def limit : Option Nat := V.engine.options.timeLimit

/-- The timeline of the launch in the room of its session. -/
abbrev Room : Type := Timeline (Option Session) World.Pending

def start : Room := V.launch.timeline V.tracked none

def surroundings : Surroundings (Option Session) World.Pending :=
  Room.surroundings V.engine V.network

def step : Room → Option Room := Timeline.step V.surroundings V.cancellation

/-- What the coordinator does at time `t` when it is told of an event. -/
def next (c : Coordinator) (t : Nat) (event : Event) : Coordinator :=
  c.advance (moment V.cancellation t) event

/-! ## What a step does -/

/-- What a track that goes on at a time is told, with the log and the session then. -/
inductive Hears (time : Nat) : Due World.Pending → List Exchange → Option Session → Event →
    List Exchange → Option Session → Prop where
  | event (event : Event) (log : List Exchange) (session? : Option Session) :
      Hears time (.event event) log session? event log session?
  | created (log : List Exchange) (s : Session) (since : Nat) :
      Hears time (.settle (.creation V.launch.session)) log (some s) (.joined (.ok ()))
        (log ++ [⟨.join, since, .joined (.ok ()), time⟩])
        (some ({ s with available := true }.enrol .creator (V.engine.spawn .creator) time))

/-- What a coordinator that has moved on waits for next, with the log and the session then. -/
inductive Asks (c : Coordinator) (time : Nat) : List Exchange → Option Session →
    State World.Pending → List Exchange → Option Session → Prop where
  | ended {report : Report} (reported : c.report? = some report) (log : List Exchange)
      (session? : Option Session) : Asks c time log session? (.ended report) log session?
  | naps {span : Nat} (asked : c.request = some (.nap span)) (order : Nat) (log : List Exchange)
      (session? : Option Session) :
      Asks c time log session? (.waiting (V.cancellation.nap time span).wokenAt order
        (.event (.woken (V.cancellation.nap time span).rested))) log session?
  | probes {endpoint : Endpoint} {limit : Nat} (asked : c.request = some (.probe endpoint limit))
      (dial : Dial) (punctual : dial.delay ≤ limit) (order : Nat) (log : List Exchange)
      (session? : Option Session) :
      Asks c time log session? (.waiting (time + dial.delay) order (.event (.probed dial.opens))) log
        session?
  | served {request : Request} {event : Event} {session? session?' : Option Session}
      (asked : c.request = some request)
      (serves : Serves V.engine c.brief time request session? event session?') (order : Nat)
      (log : List Exchange) :
      Asks c time log session? (.waiting time order (.event event))
        (log ++ record request time event time) session?'
  | creates (asked : c.request = some .join) (role : c.brief.role = .creator) (order : Nat)
      (log : List Exchange) :
      Asks c time log none (.waiting (time + V.engine.options.creationLatency) order
        (.settle (.creation V.launch.session))) log (some (.ofExpected c.brief.sceneRoles))

/-- A step of the timeline, with the logs before it and after it. -/
inductive Stride (logs : Nat → List Exchange) (tl : Room) : (Nat → List Exchange) → Room → Prop where
  | mk {i time order : Nat} {t : Track World.Pending} {due : Due World.Pending} {event : Event}
      {log log' : List Exchange} {session? session?' : Option Session} {state : State World.Pending}
      {tl' : Room} (track : tl.tracks[i]? = some t) (waiting : t.state = .waiting time order due)
      (first : ∀ u ∈ tl.tracks, ∀ time' order' due', u.state = .waiting time' order' due' →
        time ≤ time')
      (hears : V.Hears time due (logs i) tl.world event log session?)
      (history : History (V.brief ⟨i⟩) V.cancellation log (V.next t.coordinator time event) time)
      (asks : V.Asks (V.next t.coordinator time event) time log session? state log' session?')
      (changed : Changed tl.tracks i time (⟨V.next t.coordinator time event, state⟩, session?') tl') :
      Stride logs tl (Function.update logs i log') tl'

/-- The logs of the roles, for a timeline that the launch comes to. -/
inductive Chronicle : (Nat → List Exchange) → Room → Prop where
  | start : Chronicle (fun _ => []) V.start
  | goOn {logs logs' : Nat → List Exchange} {tl tl' : Room} (h : Chronicle logs tl)
      (step : V.step tl = some tl') (stride : V.Stride logs tl logs' tl') : Chronicle logs' tl'

/-! ## What a track has behind it -/

/-- A track has been waiting since it asked, or it has ended. Its log says what it has been told, and
what it is about to be told. -/
inductive Lived (r : Role) (session? : Option Session) (now : Nat) :
    List Exchange → Track World.Pending → Prop where
  | fresh {order : Nat} (hle : now ≤ V.launch.startTime r) :
      Lived r session? now [] (.starting (V.brief r) (V.launch.startTime r) order)
  | told {log : List Exchange} {c : Coordinator} {since time order : Nat} {request : Request}
      {event : Event} (history : History (V.brief r) V.cancellation log c since)
      (asked : c.request = some request) (answers : Answers V.cancellation since request event time)
      (hle : now ≤ time) :
      Lived r session? now (log ++ record request since event time)
        ⟨c, .waiting time order (.event event)⟩
  | creating {log : List Exchange} {c : Coordinator} {since time order : Nat}
      (history : History (V.brief r) V.cancellation log c since) (asked : c.request = some .join)
      (role : r = .creator) (created : session?.isSome) (since_le : since ≤ time)
      (hle : now ≤ time) :
      Lived r session? now log ⟨c, .waiting time order (.settle (.creation V.launch.session))⟩
  | ended {log : List Exchange} {c : Coordinator} {since : Nat} {report : Report}
      (history : History (V.brief r) V.cancellation log c since)
      (reported : c.report? = some report) : Lived r session? now log ⟨c, .ended report⟩

variable {V : Venture} {logs : Nat → List Exchange} {tl tl' : Room} {r : Role}
  {session? session?' : Option Session} {log log' : List Exchange} {t : Track World.Pending}
  {c : Coordinator} {now time : Nat} {state : State World.Pending}

theorem Lived.later (h : V.Lived r session? now log t)
    (hsession : session?.isSome → session?'.isSome)
    (htime : ∀ time' order due, t.state = .waiting time' order due → time ≤ time') :
    V.Lived r session?' time log t := by
  cases h with
  | fresh => exact .fresh (htime _ _ _ rfl)
  | told history asked answers => exact .told history asked answers (htime _ _ _ rfl)
  | creating history asked role created since_le =>
    exact .creating history asked role (hsession created) since_le (htime _ _ _ rfl)
  | ended history reported => exact .ended history reported

theorem Asks.lived (h : V.Asks c time log session? state log' session?')
    (history : History (V.brief r) V.cancellation log c time) :
    V.Lived r session?' time log' ⟨c, state⟩ := by
  cases h with
  | ended reported => exact .ended history reported
  | naps asked order =>
    rw [← List.append_nil log, ← record_nap]
    exact .told history asked (.nap _) (Cancellation.le_wokenAt_nap _ _ _)
  | probes asked dial =>
    rw [← List.append_nil log, ← record_probe]
    exact .told history asked (.probe (Nat.le_add_right _ _) _ _ _) (Nat.le_add_right _ _)
  | served asked serves => exact .told history asked serves.answers (Nat.le_refl time)
  | creates asked role =>
    have hrole : c.brief.role = r := congrArg Brief.role history.stands.brief
    exact .creating history asked (hrole.symm.trans role) rfl (Nat.le_add_right _ _)
      (Nat.le_add_right _ _)

theorem Hears.outlasts {due : Due World.Pending} {event : Event}
    (h : V.Hears time due log session? event log' session?') : Outlasts session? session?' := by
  cases h with
  | event => exact .refl _
  | created _ s => exact outlasts_enrol s _ _ _ true

theorem Hears.of_status {due : Due World.Pending} {a : Except String Status}
    (h : V.Hears time due log session? (.status a) log' session?') : due = .event (.status a) := by
  cases h
  rfl

theorem Asks.outlasts (h : V.Asks c time log session? state log' session?') :
    Outlasts session? session?' := by
  cases h with
  | ended | naps | probes => exact .refl _
  | served _ serves => exact serves.outlasts
  | creates => exact outlasts_none _

theorem Hears.runsAt {due : Due World.Pending} {event : Event} {t : Nat}
    (h : V.Hears time due log session? event log' session?')
    (hrun : Session.RunsAt V.limit t session?) : Session.RunsAt V.limit t session?' := by
  cases h with
  | event => exact hrun
  | created => exact Session.RunsAt.enrol (hrun.of_same rfl rfl)

theorem Asks.runsAt {t : Nat} (h : V.Asks c time log session? state log' session?')
    (hidle : ∀ token, c.request ≠ some (.send token)) (hle : time ≤ t)
    (hrun : Session.RunsAt V.limit t session?) : Session.RunsAt V.limit t session?' := by
  cases h with
  | ended | naps | probes => exact hrun
  | served asked serves => exact serves.runsAt (fun token heq => hidle token (heq ▸ asked)) hle hrun
  | creates =>
    obtain ⟨_, ⟨⟩, -⟩ := hrun

theorem track_start {i : Nat} (h : V.start.tracks[i]? = some t) :
    t = .starting (V.brief ⟨i⟩) (V.launch.startTime ⟨i⟩) i := by
  simp only [start, Launch.timeline, Launch.roles, List.map_map, List.getElem?_map,
    Option.map_eq_some_iff, Function.comp] at h
  obtain ⟨j, hj, rfl⟩ := h
  obtain rfl : i = j := by
    obtain ⟨hlt, heq⟩ := List.getElem?_eq_some_iff.mp hj
    simpa using heq
  rfl

theorem Chronicle.lived (h : V.Chronicle logs tl) {i : Nat} (ht : tl.tracks[i]? = some t) :
    V.Lived ⟨i⟩ tl.world tl.now (logs i) t := by
  induction h generalizing i t with
  | start =>
    obtain rfl := track_start ht
    exact .fresh (Nat.zero_le _)
  | goOn _ _ stride ih =>
    obtain ⟨track, waiting, first, hears, history, asks, changed⟩ := stride
    rw [changed.now, changed.world]
    rcases changed.getElem?_eq_some ht with ⟨rfl, rfl⟩ | ⟨hne, ht⟩
    · rw [Function.update_self]
      exact asks.lived history
    · rw [Function.update_of_ne hne]
      exact (ih ht).later (hears.outlasts.trans asks.outlasts).isSome
        (first t (List.mem_of_getElem? ht))

theorem Chronicle.brief (h : V.Chronicle logs tl) {i : Nat} (ht : tl.tracks[i]? = some t) :
    t.coordinator.brief = V.brief ⟨i⟩ := by
  have hlived := h.lived ht
  generalize logs i = log at hlived
  cases hlived with
  | fresh => rfl
  | told history | creating history | ended history => exact history.stands.brief

theorem Chronicle.length (h : V.Chronicle logs tl) : tl.tracks.length = V.launch.settings.roles := by
  induction h with
  | start => simp [Venture.start, Launch.timeline, Launch.roles]
  | goOn _ _ stride ih =>
    obtain ⟨-, -, -, -, -, -, changed⟩ := stride
    rw [changed.tracks, List.length_set, ih]

theorem Lived.le_time {order : Nat} {due : Due World.Pending} (h : V.Lived r session? now log t)
    (hstate : t.state = .waiting time order due) : now ≤ time := by
  cases h with
  | fresh hle | told _ _ _ hle | creating _ _ _ _ _ hle =>
    cases hstate
    exact hle
  | ended => cases hstate

theorem Lived.of_settle {order : Nat} {p : World.Pending} (h : V.Lived r session? now log t)
    (hstate : t.state = .waiting time order (.settle p)) :
    r = .creator ∧ ∃ since, History (V.brief r) V.cancellation log t.coordinator since ∧
      t.coordinator.request = some .join := by
  cases h with
  | fresh | told | ended => cases hstate
  | creating history asked role => exact ⟨role, _, history, asked⟩

theorem Hears.agent?_of_ne {due : Due World.Pending} {event : Event} {order : Nat} {r' : Role}
    (hears : V.Hears time due log session? event log' session?')
    (lived : V.Lived r' session? now log t) (waiting : t.state = .waiting time order due)
    (hne : r ≠ r') : World.agent? session?' r = World.agent? session? r := by
  cases hears with
  | event => rfl
  | created _ s =>
    obtain ⟨rfl, -⟩ := lived.of_settle waiting
    change ({ s with available := true }.enrol .creator _ _).agent? r = s.agent? r
    rw [Session.agent?_enrol, if_neg hne]
    rfl

theorem Asks.agent?_of_ne (asks : V.Asks c time log session? state log' session?')
    (hne : r ≠ c.brief.role) : World.agent? session?' r = World.agent? session? r := by
  cases asks with
  | ended | naps | probes | creates => rfl
  | served asked serves => exact serves.agent? hne

/-! ## Every launch has a chronicle -/

theorem request_or_report (h : History (V.brief r) V.cancellation log c now) :
    (∃ report, c.report? = some report) ∨ ∃ request, c.request = some request := by
  cases hreport : c.report? with
  | some report => exact .inl ⟨report, rfl⟩
  | none =>
    have hphase : c.phase ≠ .fresh := fun hphase => (h.stands.behind_of_phase hphase : False)
    exact .inr (exists_request hphase hreport)

theorem exists_asks (history : History (V.brief r) V.cancellation log c time)
    (session? : Option Session) (t : Track World.Pending) (o : Nat) :
    ∃ state log' session?', V.Asks c time log session? state log' session?' ∧
      V.surroundings.follow V.cancellation t c time session? o =
        (⟨c, state⟩, session?') := by
  rcases request_or_report history with ⟨report, hreport⟩ | ⟨request, hrequest⟩
  · exact ⟨_, _, _, .ended hreport log session?, Surroundings.follow_report hreport⟩
  · by_cases hnap : ∃ span, request = .nap span
    · obtain ⟨span, rfl⟩ := hnap
      exact ⟨_, _, _, .naps hrequest o log session?, Surroundings.follow_nap hrequest⟩
    · have hnap : ∀ span, request ≠ .nap span := fun span heq => hnap ⟨span, heq⟩
      by_cases hprobe : ∃ endpoint limit, request = .probe endpoint limit
      · obtain ⟨endpoint, limit, rfl⟩ := hprobe
        exact ⟨_, _, _, .probes hrequest _ (Dial.delay_within_le _ limit) o log session?,
          Surroundings.follow_after hrequest hnap rfl⟩
      · have hprobe : ∀ endpoint limit, request ≠ .probe endpoint limit :=
          fun endpoint limit heq => hprobe ⟨endpoint, limit, heq⟩
        rcases take_cases V.engine V.network c.brief time session? hnap hprobe with
          ⟨event, session?', htake, hserves⟩ | ⟨rfl, rfl, hrole, htake⟩
        · exact ⟨_, _, _, .served hrequest hserves o log,
            Surroundings.follow_event hrequest hnap htake⟩
        · have hsession : c.brief.session = V.launch.session :=
            congrArg Brief.session history.stands.brief
          rw [hsession] at htake
          exact ⟨_, _, _, .creates hrequest hrole o log,
            Surroundings.follow_later hrequest hnap htake⟩

theorem Chronicle.exists_stride (h : V.Chronicle logs tl) (hstep : V.step tl = some tl') :
    ∃ logs', V.Stride logs tl logs' tl' := by
  obtain ⟨i, t, time, order, due, o, track, waiting, first, changed⟩ := step_eq_some hstep
  suffices ∃ event log session?, V.Hears time due (logs i) tl.world event log session? ∧
      History (V.brief ⟨i⟩) V.cancellation log (V.next t.coordinator time event) time ∧
      V.surroundings.occur t.coordinator.brief time tl.world due =
        (some event, session?) by
    obtain ⟨event, log, session?, hears, history, hoccur⟩ := this
    obtain ⟨state, log', session?', asks, hfollow⟩ := exists_asks history session? t o
    have hresume : V.surroundings.resume V.cancellation t time due tl.world o =
        (⟨V.next t.coordinator time event, state⟩, session?') := by
      rw [Surroundings.resume, hoccur]
      exact hfollow
    rw [hresume] at changed
    exact ⟨_, .mk track waiting first hears history asks changed⟩
  have hlived := h.lived track
  generalize logs i = log at hlived ⊢
  cases hlived with
  | fresh =>
    cases waiting
    exact ⟨_, _, _, .event _ _ _, .start _, rfl⟩
  | told history asked answers =>
    cases waiting
    exact ⟨_, _, _, .event _ _ _, history.goOn asked answers, rfl⟩
  | creating history asked role created since_le =>
    cases waiting
    obtain ⟨s, hs⟩ := Option.isSome_iff_exists.mp created
    rw [hs]
    exact ⟨_, _, _, .created _ s _, history.goOn asked (.join since_le (.ok ())), rfl⟩
  | ended => cases waiting

theorem Chronicle.reaches (h : V.Chronicle logs tl) : Reaches V.step V.start tl := by
  induction h with
  | start => exact .refl
  | goOn _ hstep _ ih => exact ih.tail hstep

theorem exists_chronicle (h : Reaches V.step V.start tl) : ∃ logs, V.Chronicle logs tl := by
  induction h with
  | refl => exact ⟨_, .start⟩
  | tail _ hstep ih =>
    obtain ⟨logs, h⟩ := ih
    obtain ⟨logs', stride⟩ := h.exists_stride hstep
    exact ⟨logs', h.goOn hstep stride⟩

/-! ## The world of a venture -/

/-- All hosts are those of the engine. -/
def world (V : Venture) (board : Option Board) : World :=
  ⟨V.engine, V.launch.hosts fun r => .engine (.ofRole r), board, V.network⟩

/-- A timeline in the world goes like one in the room. -/
def Mirrors (V : Venture) (tl : Timeline World World.Pending) (tl' : Room) : Prop :=
  Alike (fun w session? =>
      w.Houses V.engine V.network V.launch.session V.launch.settings.roles session?)
    (World.Refers V.launch.session V.launch.settings.roles) World.Creates tl tl'

theorem houses_world (V : Venture) (board : Option Board) :
    (V.world board).Houses V.engine V.network V.launch.session V.launch.settings.roles none where
  network := rfl
  engine := ⟨_, rfl⟩
  session := V.unused
  host r hr := by
    have hmem : r ∈ V.launch.roles := List.mem_map.mpr ⟨r.number, List.mem_range.mpr hr, rfl⟩
    exact List.lookup_graph (fun r => World.Host.engine (.ofRole r)) hmem

theorem mirrors_start (V : Venture) (board : Option Board) :
    V.Mirrors (V.launch.timeline V.tracked (V.world board)) V.start := by
  refine ⟨rfl, V.houses_world board, fun t ht => ?_⟩
  obtain ⟨r, hr, rfl⟩ := List.mem_map.mp ht
  obtain ⟨i, hi, rfl⟩ := List.mem_map.mp hr
  exact ⟨⟨rfl, List.mem_range.mp hi⟩, fun _ _ _ hstate => by cases hstate⟩

theorem mirrors_respects (V : Venture) :
    Respects (Timeline.step World.surroundings V.cancellation) V.step V.Mirrors :=
  Alike.respects (World.mimics_room _ _ _ _)

theorem mirrors_respects_flip (V : Venture) :
    Respects V.step (Timeline.step World.surroundings V.cancellation) (flip V.Mirrors) :=
  Alike.respects_flip (World.mimics_room _ _ _ _)

end Venture

namespace Launch

/-! ## Launches in a maze -/

/-- The world at the start, with an engine for a maze that hosts all roles of the launch. -/
def mazeWorld (l : Launch) (grid : Grid) (start finish : Cell) (options : Engine.Options)
    (board : Option Board) (network : Network) : World :=
  ⟨.ofMaze grid start finish options, l.hosts fun r => .engine (.ofRole r), board, network⟩

def mazeVenture (l : Launch) (grid : Grid) (start finish : Cell) (options : Engine.Options)
    (network : Network) (tracked : Bool) : Venture :=
  ⟨l, .ofMaze grid start finish options, network, tracked, Std.HashMap.getElem?_empty⟩

theorem mirrors_mazeWorld (l : Launch) (grid : Grid) (start finish : Cell)
    (options : Engine.Options) (board : Option Board) (network : Network) :
    (l.mazeVenture grid start finish options network board.isSome).Mirrors
      (l.timeline board.isSome (l.mazeWorld grid start finish options board network))
      (l.mazeVenture grid start finish options network board.isSome).start :=
  Venture.mirrors_start _ board

/-- When the steps in the room come to an end, the launch has a run in which all tracks end. -/
theorem exists_run_of_eval (l : Launch) (grid : Grid) (start finish : Cell)
    (options : Engine.Options) (board : Option Board) (network : Network)
    (hend : ∃ tl, tl ∈ eval (l.mazeVenture grid start finish options network board.isSome).step
      (l.mazeVenture grid start finish options network board.isSome).start) :
    ∃ fuel tl logs tl', l.run (l.mazeWorld grid start finish options board network) fuel = some tl ∧
      (l.mazeVenture grid start finish options network board.isSome).Chronicle logs tl' ∧
      tl'.tracks = tl.tracks ∧ ∀ t ∈ tl.tracks, ∃ report, t.state = .ended report := by
  obtain ⟨tl', hend⟩ := hend
  obtain ⟨tl, mirrors, hrun⟩ := tr_eval (Venture.mirrors_respects_flip _)
    (l.mirrors_mazeWorld grid start finish options board network) hend
  obtain ⟨fuel, hrun⟩ := mem_eval_iff_exists_run.mp hrun
  obtain ⟨hreach, hstep⟩ := mem_eval.mp hend
  obtain ⟨logs, h⟩ := Venture.exists_chronicle hreach
  have htracks : tl'.tracks = tl.tracks := congrArg Timeline.tracks mirrors.same
  exact ⟨fuel, tl, logs, tl', hrun, h, htracks, fun t ht =>
    ended_of_step_eq_none hstep (htracks ▸ ht)⟩

end Launch

end Labyrinth

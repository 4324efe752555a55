import Labyrinth.Proofs.Launch.Horizon
import Labyrinth.Proofs.Launch.Roster

/-!
# When roles gather

With an endpoint for each role the creator makes its session as soon as it has probed the endpoints,
and the others get in with their first attempt after that. So there is a time by which the session
has begun, if it ever does.
-/

namespace Labyrinth

open Coordinator Engine Timeline Room

/-- The scene has all roles of the launch, and there is an endpoint for each of them. -/
structure Launch.Furnished (l : Launch) : Prop where
  scene : l.sceneRoles = l.settings.roles
  pool : l.settings.roles ≤ l.pool.size

namespace Launch.Settings

/-- Before that the role is not let in. -/
def arrival (s : Settings) (latency : Nat) (r : Role) : Nat :=
  if r = .creator then latency else max s.stagger latency

/-- By then the session has begun, if it ever does. -/
def gatheredBy (s : Settings) (latency endpoints : Nat) : Nat :=
  s.probeSpan endpoints + max s.stagger (latency + s.coordinator.joining.interval)

end Launch.Settings

namespace Venture

variable (V : Venture)

def arrival (r : Role) : Nat := V.launch.settings.arrival V.latency r

def gatheredBy : Nat := V.launch.settings.gatheredBy V.latency V.launch.pool.size

/-- By then the session lets the others in. -/
def openedBy : Nat := V.probeSpan + V.latency

/-- The creator probes the endpoints and waits for its session to be made, and lets the others in
after that. -/
inductive Opening (now : Nat) (log : List Exchange) (t : Track World.Pending) :
    Option Session → Prop where
  | before {time order : Nat} {e : Event} (waiting : t.state = .waiting time order (.event e))
      (prepares : V.Prepares 0 time t.coordinator.phase) (quiet : log = []) :
      Opening now log t none
  | creating {time order : Nat} {p : World.Pending}
      (waiting : t.state = .waiting time order (.settle p)) (late : V.latency ≤ time)
      (inTime : time ≤ V.openedBy) {s : Session} (closed : s.available = false) :
      Opening now log t (some s)
  | opened (entered : t.coordinator.phase.isEarly = false) {s : Session} (available : s.available)
      (hle : V.latency ≤ now) : Opening now log t (some s)

/-- A role that does not create the session is on its way to it, or has got there. -/
structure Coming (r : Role) (session? : Option Session) (p : Phase) (time : Nat)
    (due : Due World.Pending) : Prop where
  started : V.launch.settings.stagger ≤ time
  inTime : p.isEarly → time ≤ V.gatheredBy
  outside : p.isEarly → due ≠ .event (.joined (.ok ())) → World.agent? session? r = none
  refused : ∀ error, due = .event (.joined (.error error)) → time ≤ V.openedBy

structure Gathering (logs : Nat → List Exchange) (tl : Room) : Prop where
  creator : ∀ t, tl.tracks[0]? = some t → V.Opening tl.now (logs 0) t tl.world
  others : ∀ i t time order due, 0 < i → tl.tracks[i]? = some t → t.state = .waiting time order due →
    V.Coming ⟨i⟩ tl.world t.coordinator.phase time due
  begun : ∀ t, tl.world.bind (·.begunAt) = some t → t ≤ V.gatheredBy
  admissions : ∀ i, ∀ q ∈ logs i, q.isAdmission → V.arrival ⟨i⟩ ≤ q.answeredAt

variable {V : Venture} {r : Role} {log log' : List Exchange} {session? session?' : Option Session}
  {c : Coordinator} {now time i : Nat} {state : State World.Pending} {q : Exchange} {p : Phase}
  {event : Event} {due : Due World.Pending} {tl tl' : Room} {t : Track World.Pending}
  {logs logs' : Nat → List Exchange}

theorem openedBy_le_gatheredBy : V.openedBy + V.settings.joining.interval ≤ V.gatheredBy := by
  unfold openedBy
  rw [Nat.add_assoc]
  exact Nat.add_le_add_left (Nat.le_max_right _ _) _

theorem probedBy_le_gatheredBy : V.probedBy ≤ V.gatheredBy := by
  unfold probedBy
  rw [Nat.add_comm]
  exact Nat.add_le_add_left (Nat.le_max_left _ _) _

theorem Prepares.le_openedBy (h : V.Prepares 0 time p) : time ≤ V.openedBy := by
  have hle := h.le
  unfold openedBy
  omega

theorem Opening.latency_le {s : Session} (h : V.Opening now log t (some s)) (hs : s.available) :
    V.latency ≤ now := by
  cases h with
  | creating _ _ _ closed =>
    rw [closed] at hs
    cases hs
  | opened _ _ hle => exact hle

theorem room_of_furnished (furnished : V.launch.Furnished) (hbrief : c.brief = V.brief r)
    (hr : r.number < V.launch.settings.roles) :
    c.brief.sceneRoles ≤ c.brief.pool.size ∧ c.brief.role.number < c.brief.sceneRoles := by
  rw [hbrief]
  exact ⟨Nat.le_trans (Nat.le_of_eq furnished.scene) furnished.pool,
    Nat.lt_of_lt_of_eq hr furnished.scene.symm⟩

theorem Opening.exists_waiting (h : V.Opening now log t session?)
    (hshut : ∀ s ∈ session?, s.available = false) :
    ∃ time order due, t.state = .waiting time order due ∧ time ≤ V.openedBy := by
  cases h with
  | before waiting prepares => exact ⟨_, _, _, waiting, prepares.le_openedBy⟩
  | creating waiting _ inTime => exact ⟨_, _, _, waiting, inTime⟩
  | opened _ available =>
    rw [hshut _ rfl] at available
    cases available

theorem Opening.later (h : V.Opening now log t session?) (hle : now ≤ time)
    (havailable : session?'.map (·.available) = session?.map (·.available)) :
    V.Opening time log t session?' := by
  cases h with
  | before waiting prepares quiet =>
    obtain rfl := Option.map_eq_none_iff.mp havailable
    exact .before waiting prepares quiet
  | creating waiting late inTime closed =>
    obtain ⟨s', rfl, hs'⟩ := Option.map_eq_some_iff.mp havailable
    exact .creating waiting late inTime (hs'.trans closed)
  | opened entered available hlatency =>
    obtain ⟨s', rfl, hs'⟩ := Option.map_eq_some_iff.mp havailable
    exact .opened entered (hs'.trans available) (Nat.le_trans hlatency hle)

theorem Coming.later (h : V.Coming r session? p time due)
    (hagent : World.agent? session?' r = World.agent? session? r) :
    V.Coming r session?' p time due where
  started := h.started
  inTime := h.inTime
  outside hp hdue := hagent.trans (h.outside hp hdue)
  refused := h.refused

/-! ## A step of the creator -/

theorem Asks.available (asks : V.Asks c time log session? state log' session?')
    (hsome : session?.isSome) : session?'.map (·.available) = session?.map (·.available) := by
  cases asks with
  | ended | naps | probes => rfl
  | served asked serves => exact serves.available
  | creates => cases hsome

theorem Asks.available_of_ne (asks : V.Asks c time log session? state log' session?')
    (hrole : c.brief.role ≠ .creator) :
    session?'.map (·.available) = session?.map (·.available) := by
  cases asks with
  | ended | naps | probes => rfl
  | served asked serves => exact serves.available
  | creates asked role => exact absurd role hrole

theorem Asks.admissions {bound : Nat} (asks : V.Asks c time log session? state log' session?')
    (h : ∀ q ∈ log, q.isAdmission → bound ≤ q.answeredAt)
    (hjoin : ∀ s ∈ session?, s.available → c.request = some .join → bound ≤ time) :
    ∀ q ∈ log', q.isAdmission → bound ≤ q.answeredAt := by
  cases asks with
  | ended | naps | probes | creates => exact h
  | served asked serves =>
    cases serves with
    | publish =>
      rw [record_publish, List.append_nil]
      exact h
    | admitted s available => exact forall_mem_append_singleton h fun _ => hjoin s rfl available asked
    | observe | refused | statusFailed | status | sendFailed | ignored | obeyed =>
      exact forall_mem_append_singleton h (absurd · Bool.false_ne_true)

theorem Opening.inTime {order : Nat} (h : V.Opening now log t session?)
    (waiting : t.state = .waiting time order due) (hearly : t.coordinator.phase.isEarly) :
    time ≤ V.openedBy := by
  cases h with
  | before hstate prepares =>
    rw [hstate] at waiting
    cases waiting
    exact prepares.le_openedBy
  | creating hstate _ inTime =>
    rw [hstate] at waiting
    cases waiting
    exact inTime
  | opened entered =>
    rw [entered] at hearly
    cases hearly

theorem Opening.latency_le_time {order : Nat} {p : World.Pending}
    (h : V.Opening now log t session?) (waiting : t.state = .waiting time order (.settle p))
    (hearly : t.coordinator.phase.isEarly) : V.latency ≤ time := by
  cases h with
  | before hstate =>
    rw [hstate] at waiting
    cases waiting
  | creating hstate late =>
    rw [hstate] at waiting
    cases waiting
    exact late
  | opened entered =>
    rw [entered] at hearly
    cases hearly

theorem Opening.eq_none_of_join {order : Nat} {log₁ : List Exchange} {session₁ : Option Session}
    (h : V.Opening now log t session?) (waiting : t.state = .waiting time order due)
    (hears : V.Hears time due log session? event log₁ session₁)
    (leads : Leads (V.brief .creator) V.cancellation time t.coordinator.phase event c.phase)
    (asked : c.request = some .join) : session₁ = none := by
  obtain ⟨hearly, hevent⟩ := leads.isEarly (isEarly_of_request asked)
  cases h with
  | before hstate =>
    rw [hstate] at waiting
    cases waiting
    cases hears
    rfl
  | creating hstate =>
    rw [hstate] at waiting
    cases waiting
    cases hears
    exact absurd rfl hevent
  | opened entered =>
    rw [entered] at hearly
    cases hearly

theorem Asks.opened {s : Session} (asks : V.Asks c time log (some s) state log' session?')
    (entered : c.phase.isEarly = false) (available : s.available) (hle : V.latency ≤ time) :
    V.Opening time log' ⟨c, state⟩ session?' := by
  obtain ⟨s', rfl, hs'⟩ := Option.map_eq_some_iff.mp (asks.available rfl)
  exact .opened entered (hs'.trans available) hle

theorem Asks.before (asks : V.Asks c time [] none state log' session?')
    (hbrief : c.brief = V.brief .creator)
    (prepares : V.Prepares 0 (time + V.patience c.phase) c.phase) (hnot : c.phase ≠ .fresh) :
    V.Opening time log' ⟨c, state⟩ session?' := by
  obtain ⟨endpoint, limit, rest, hphase⟩ : ∃ endpoint limit rest,
      c.phase = .probing limit endpoint rest := by
    generalize c.phase = p at prepares hnot
    cases p with
    | fresh => exact absurd rfl hnot
    | probing limit endpoint rest => exact ⟨_, _, _, rfl⟩
    | _ => exact prepares.elim
  have hrequest : c.request = some (.probe endpoint limit) := by rw [Coordinator.request, hphase]
  cases asks with
  | probes asked dial punctual =>
    have hle : time + dial.delay ≤ time + V.patience c.phase :=
      Asks.le_patience (.probes asked dial punctual 0 [] none) hbrief
    exact .before rfl (prepares.earlier hle) rfl
  | served asked serves =>
    rw [asked] at hrequest
    cases hrequest
    cases serves
  | ended reported =>
    rw [Surroundings.report?_eq_none hrequest] at reported
    cases reported
  | naps asked | creates asked =>
    rw [asked] at hrequest
    cases hrequest

theorem Asks.opening {loop : Retry} (asks : V.Asks c time [] none state log' session?')
    (htime : time ≤ V.probeSpan) (hbrief : c.brief = V.brief .creator)
    (furnished : V.launch.Furnished) (hroles : 0 < V.launch.settings.roles)
    (hphase : c.phase = .joining loop .answer) : V.Opening time log' ⟨c, state⟩ session?' := by
  have hrequest : c.request = some .join := by rw [Coordinator.request, hphase]
  cases asks with
  | creates => exact .creating rfl (Nat.le_add_left _ _) (Nat.add_le_add_right htime _) rfl
  | served asked serves =>
    rw [asked] at hrequest
    cases hrequest
    cases serves with
    | refused error _ why =>
      obtain ⟨hpool, hplace⟩ := room_of_furnished furnished hbrief hroles
      have hshut := (why hpool hplace).creator
      rw [hbrief] at hshut
      cases hshut rfl
  | ended reported =>
    rw [Surroundings.report?_eq_none hrequest] at reported
    cases reported
  | naps asked | probes asked =>
    rw [asked] at hrequest
    cases hrequest

theorem Opening.step {order : Nat} {log₁ : List Exchange} {session₁ : Option Session}
    (h : V.Opening now log t session?) (waiting : t.state = .waiting time order due)
    (hle : now ≤ time) (hears : V.Hears time due log session? event log₁ session₁)
    (history : History (V.brief .creator) none log₁ c time)
    (leads : Leads (V.brief .creator) V.cancellation time t.coordinator.phase event c.phase)
    (furnished : V.launch.Furnished) (hroles : 0 < V.launch.settings.roles)
    (asks : V.Asks c time log₁ session₁ state log' session?') :
    V.Opening time log' ⟨c, state⟩ session?' := by
  have hentered : event = .joined (.ok ()) ∨ t.coordinator.phase.isEarly = false →
      c.phase.isEarly = false := fun h => by
    rw [← Bool.not_eq_true]
    intro hearly
    obtain ⟨hbefore, hevent⟩ := leads.isEarly hearly
    rcases h with heq | hfalse
    · exact hevent heq
    · rw [hfalse] at hbefore
      cases hbefore
  cases h with
  | before hstate prepares quiet =>
    rw [hstate] at waiting
    cases waiting
    cases hears
    subst quiet
    have hbrief := history.stands.brief
    rcases prepares.leads leads (Nat.le_refl _) with hprepares | hphase | hover
    · exact asks.before hbrief hprepares fun hphase => (history.stands.behind_of_phase hphase : False)
    · exact asks.opening (Nat.zero_add V.probeSpan ▸ prepares.le) hbrief furnished hroles hphase
    · -- Nobody cancels the role, so it does not end so early.
      have hpatient := history.patient
      generalize c.phase = p' at hover hpatient
      cases p' with
      | terminated => simp [Patient, Outwaited] at hpatient
      | _ => cases hover
  | creating hstate late =>
    rw [hstate] at waiting
    cases waiting
    cases hears
    exact asks.opened (hentered (.inl rfl)) rfl late
  | opened entered available hlatency =>
    cases hears with
    | event => exact asks.opened (hentered (.inr entered)) available (Nat.le_trans hlatency hle)
    | created => exact asks.opened (hentered (.inr entered)) rfl (Nat.le_trans hlatency hle)

/-! ## A step of another role -/

theorem Coming.pause_le {loop : Retry} (h : V.Coming r session? p time (.event event))
    (hphase : c.phase = .joining loop .pause)
    (leads : Leads (V.brief r) V.cancellation time p event c.phase)
    (hpolicy : ∀ loop, p = .joining loop .answer → loop.policy = V.settings.joining) :
    time + loop.policy.interval ≤ V.gatheredBy := by
  rw [hphase] at leads
  generalize hp' : Phase.joining loop .pause = p' at leads
  cases leads with
  | joinPause loop error =>
    cases hp'
    rw [hpolicy loop rfl]
    exact Nat.le_trans (Nat.add_le_add_right (h.refused error rfl) _) openedBy_le_gatheredBy
  | depart _ _ plan => cases plan <;> cases hp'
  | proceed rest => cases rest <;> cases hp'
  | _ => cases hp'

section Others

variable {time' order : Nat} {due' : Due World.Pending} (hne : r ≠ .creator)
  (hcancellation : V.cancellation = none) (furnished : V.launch.Furnished)
  (hr : r.number < V.launch.settings.roles) (hbrief : c.brief = V.brief r)
  (leads : Leads (V.brief r) V.cancellation time p event c.phase)
  (hpolicy : ∀ loop, p = .joining loop .answer → loop.policy = V.settings.joining)
  (hshut : (∀ s ∈ session?, s.available = false) → time ≤ V.openedBy)
  (asks : V.Asks c time log session? (.waiting time' order due') log' session?')
  (hin : V.InTime time' c.phase)

include hne hcancellation furnished hr hbrief leads hpolicy hshut asks hin

theorem Coming.step (h : V.Coming r session? p time (.event event)) :
    V.Coming r session?' c.phase time' due' := by
  have hrole : c.brief.role = r := congrArg Brief.role hbrief
  have houtside : c.phase.isEarly → World.agent? session? r = none := fun hearly =>
    h.outside (leads.isEarly hearly).1 fun heq => (leads.isEarly hearly).2 (Due.event.inj heq)
  cases asks with
  | creates asked role => exact absurd (hrole.symm.trans role) hne
  | naps asked =>
    constructor
    case started => exact Nat.le_trans h.started (Cancellation.le_wokenAt_nap _ _ _)
    case inTime =>
      intro hearly
      rw [hcancellation]
      unfold Coordinator.request at asked
      split at asked <;> cases asked <;> rename_i hphase
      · exact h.pause_le hphase leads hpolicy
      all_goals
        rw [hphase] at hearly
        cases hearly
    case outside => exact fun hearly _ => houtside hearly
    case refused =>
      intro error hdue
      cases hdue
  | probes asked dial =>
    constructor
    case started => exact Nat.le_trans h.started (Nat.le_add_right _ _)
    case inTime =>
      intro _
      unfold Coordinator.request at asked
      split at asked <;> cases asked
      rename_i hphase
      rw [hphase] at hin
      exact Nat.le_trans (hin.prepares rfl).le probedBy_le_gatheredBy
    case outside => exact fun hearly _ => houtside hearly
    case refused =>
      intro error hdue
      cases hdue
  | served asked serves =>
    constructor
    case started => exact h.started
    case inTime => exact fun hearly => h.inTime (leads.isEarly hearly).1
    case outside =>
      intro hearly hdue
      rw [← Option.not_isSome_iff_eq_none]
      intro hin
      have hin := (serves.inside (hrole.symm ▸ hin)).resolve_right fun heq => hdue (congrArg _ heq)
      rw [hrole, houtside hearly] at hin
      cases hin
    case refused =>
      intro error hdue
      cases serves with
      | refused _ _ why =>
        obtain ⟨hpool, hplace⟩ := room_of_furnished furnished hbrief hr
        refine hshut (((why hpool hplace).other (hrole.symm ▸ hne)).resolve_right fun hin => ?_)
        rw [hrole, houtside (isEarly_of_request asked)] at hin
        cases hin
      | _ => cases hdue

end Others

/-! ## All along a launch -/

theorem gathering_start (hcancellation : V.launch.cancellation = none) :
    V.Gathering (fun _ => []) V.start := by
  constructor
  case creator =>
    intro t ht
    obtain rfl := track_start ht
    exact .before rfl (Nat.le_refl 0) rfl
  case others =>
    intro i t time order due hi ht hstate
    obtain rfl := track_start ht
    have hne : (⟨i⟩ : Role) ≠ .creator := fun heq => Nat.ne_of_gt hi (congrArg Role.number heq)
    have htime := Launch.startTime_of_ne hcancellation hne
    cases hstate
    rw [htime]
    refine ⟨Nat.le_refl _, fun _ => Nat.le_trans (Nat.le_add_right _ _) probedBy_le_gatheredBy,
      fun _ _ => rfl, fun error hdue => ?_⟩
    cases hdue
  case begun =>
    intro b hb
    cases hb
  case admissions => exact fun _ => List.forall_mem_nil _

theorem Hears.of_ne {log₁ : List Exchange} {session₁ : Option Session} {order : Nat}
    (hears : V.Hears time due log session? event log₁ session₁)
    (lived : V.Lived r session? now log t) (waiting : t.state = .waiting time order due)
    (hne : r ≠ .creator) : due = .event event ∧ log₁ = log ∧ session₁ = session? := by
  cases hears with
  | event => exact ⟨rfl, rfl, rfl⟩
  | created => exact absurd (lived.of_settle waiting).1 hne

section Steps

variable {order : Nat} {log₁ : List Exchange} {session₁ : Option Session}
  (h : V.Chronicle logs tl) (g : V.Gathering logs tl) (track : tl.tracks[i]? = some t)
  (waiting : t.state = .waiting time order due)
  (hears : V.Hears time due (logs i) tl.world event log₁ session₁)
  (history : History (V.brief ⟨i⟩) V.cancellation log₁ (V.next t.coordinator time event) time)
  (asks : V.Asks (V.next t.coordinator time event) time log₁ session₁ state log' session?')

theorem ne_creator (hi : 0 < i) : (⟨i⟩ : Role) ≠ .creator := fun heq =>
  Nat.ne_of_gt hi (congrArg Role.number heq)

theorem exists_creator (track : tl.tracks[i]? = some t) : ∃ t₀, tl.tracks[0]? = some t₀ :=
  ⟨_, List.getElem?_eq_getElem (Nat.zero_lt_of_lt (List.getElem?_eq_some_iff.mp track).1)⟩

include g track waiting

theorem Gathering.inTime (hearly : t.coordinator.phase.isEarly) : time ≤ V.gatheredBy := by
  rcases Nat.eq_zero_or_pos i with rfl | hi
  · exact Nat.le_trans ((g.creator t track).inTime waiting hearly)
      (Nat.le_trans (Nat.le_add_right _ _) openedBy_le_gatheredBy)
  · exact (g.others i t time order due hi track waiting).inTime hearly

include h hears

theorem Gathering.begun_le (asks : V.Asks (V.next t.coordinator time event) time log₁ session₁ state
      log' session?') {b : Nat} (hb : session?'.bind (·.begunAt) = some b) : b ≤ V.gatheredBy := by
  rcases asks.begunAt hb with hb | ⟨asked, rfl⟩
  · rcases hears.begunAt hb with hb | ⟨⟨p, rfl⟩, rfl⟩
    · exact g.begun b hb
    · obtain ⟨-, _, -, asked⟩ := (h.lived track).of_settle waiting
      exact g.inTime track waiting (isEarly_of_request asked)
  · exact g.inTime track waiting ((h.leads track waiting hears).isEarly (isEarly_of_request asked)).1

theorem Gathering.admissions_le (history : History (V.brief ⟨i⟩) V.cancellation log₁
      (V.next t.coordinator time event) time)
    (asks : V.Asks (V.next t.coordinator time event) time log₁ session₁ state log' session?') :
    ∀ q ∈ log', q.isAdmission → V.arrival ⟨i⟩ ≤ q.answeredAt := by
  have hlived := h.lived track
  have hle := hlived.le_time waiting
  have hleads := h.leads track waiting hears
  rcases Nat.eq_zero_or_pos i with rfl | hi
  · have hopening := g.creator t track
    refine asks.admissions ?_ fun s hs _ asked => ?_
    · generalize hlog : logs 0 = log at hears
      generalize tl.world = world at hears hopening hlived
      cases hears with
      | event => exact hlog ▸ g.admissions 0
      | created =>
        obtain ⟨-, _, -, asked⟩ := hlived.of_settle waiting
        refine forall_mem_append_singleton (hlog ▸ g.admissions 0) fun _ => ?_
        exact hopening.latency_le_time waiting (isEarly_of_request asked)
    · rw [hopening.eq_none_of_join waiting hears hleads asked] at hs
      cases hs
  · obtain ⟨t₀, ht₀⟩ := exists_creator track
    obtain ⟨rfl, rfl, rfl⟩ := hears.of_ne hlived waiting (ne_creator hi)
    refine asks.admissions (g.admissions i) fun s hs available _ => ?_
    have hopening := g.creator t₀ ht₀
    rw [Option.mem_def.mp hs] at hopening
    rw [arrival, Launch.Settings.arrival, if_neg (ne_creator hi)]
    refine Nat.max_le.mpr ⟨(g.others i t time order _ hi track waiting).started, ?_⟩
    exact Nat.le_trans (hopening.latency_le available) hle

theorem Gathering.others_step (hi : 0 < i) (hV : V.launch.Bounded) (furnished : V.launch.Furnished)
    (first : ∀ u ∈ tl.tracks, ∀ time' order' due', u.state = .waiting time' order' due' →
      time ≤ time')
    (history : History (V.brief ⟨i⟩) V.cancellation log₁ (V.next t.coordinator time event) time)
    {time' order' : Nat} {due' : Due World.Pending}
    (asks : V.Asks (V.next t.coordinator time event) time log₁ session₁
      (.waiting time' order' due') log' session?') :
    V.Coming ⟨i⟩ session?' (V.next t.coordinator time event).phase time' due' := by
  have hlt : i < V.launch.settings.roles := h.length ▸ (List.getElem?_eq_some_iff.mp track).1
  have hleads := h.leads track waiting hears
  have hin := h.inTime hV track waiting
  obtain ⟨t₀, ht₀⟩ := exists_creator track
  obtain ⟨rfl, rfl, rfl⟩ := hears.of_ne (h.lived track) waiting (ne_creator hi)
  refine (g.others i t time order _ hi track waiting).step (ne_creator hi) hV.cancellation furnished
    hlt history.stands.brief hleads (fun loop hphase => ?_) (fun hshut => ?_) asks
    (hin.leads hV hleads asks.isOver (asks.le_patience history.stands.brief))
  · rw [hphase] at hin
    exact hin.1
  · obtain ⟨time₀, _, _, hstate, hle₀⟩ := (g.creator t₀ ht₀).exists_waiting hshut
    exact Nat.le_trans (first t₀ (List.mem_of_getElem? ht₀) _ _ _ hstate) hle₀

end Steps

theorem Chronicle.gathering (hV : V.launch.Bounded) (furnished : V.launch.Furnished)
    (h : V.Chronicle logs tl) : V.Gathering logs tl := by
  induction h with
  | start => exact gathering_start hV.cancellation
  | @goOn logs logs' tl tl' h _ stride ih =>
    have hlength := h.length
    obtain ⟨track, waiting, first, hears, history, asks, changed⟩ := stride
    rename_i i time order t due event log₁ log' session₁ session?' state
    have hlived := h.lived track
    have hle := hlived.le_time waiting
    have hlt : i < V.launch.settings.roles := hlength ▸ (List.getElem?_eq_some_iff.mp track).1
    have hrole : (V.next t.coordinator time event).brief.role = ⟨i⟩ :=
      congrArg Brief.role history.stands.brief
    constructor
    case creator =>
      intro t' ht'
      rw [changed.now, changed.world]
      rcases changed.getElem?_eq_some ht' with ⟨rfl, rfl⟩ | ⟨hne, ht'⟩
      · rw [Function.update_self]
        have hhistory := history
        rw [show V.cancellation = none from hV.cancellation] at hhistory
        exact (ih.creator t track).step waiting hle hears hhistory (h.leads track waiting hears)
          furnished hlt asks
      · have hi := ne_creator (Nat.pos_of_ne_zero (Ne.symm hne))
        obtain ⟨-, -, rfl⟩ := hears.of_ne hlived waiting hi
        rw [Function.update_of_ne hne]
        exact (ih.creator t' ht').later hle (asks.available_of_ne (hrole ▸ hi))
    case others =>
      intro j t' time' order' due' hj ht' hstate
      rw [changed.world]
      rcases changed.getElem?_eq_some ht' with ⟨rfl, rfl⟩ | ⟨hne, ht'⟩
      · dsimp only at hstate
        subst hstate
        exact ih.others_step h track waiting hears hj hV furnished first history asks
      · have hne : (⟨j⟩ : Role) ≠ ⟨i⟩ := fun heq => hne (congrArg Role.number heq)
        refine (ih.others j t' time' order' due' hj ht' hstate).later ?_
        rw [asks.agent?_of_ne (hrole ▸ hne), hears.agent?_of_ne hlived waiting hne]
    case begun =>
      intro b hb
      rw [changed.world] at hb
      exact ih.begun_le h track waiting hears asks hb
    case admissions =>
      intro j
      by_cases hij : j = i
      · subst hij
        rw [Function.update_self]
        exact ih.admissions_le h track waiting hears history asks
      · rw [Function.update_of_ne hij]
        exact ih.admissions j

end Venture

end Labyrinth

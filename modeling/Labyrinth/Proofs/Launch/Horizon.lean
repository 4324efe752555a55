import Labyrinth.Proofs.Coordinator.Leads
import Labyrinth.Proofs.Launch.Chronicle
import Labyrinth.Proofs.Launch.Moves
import Mathlib.Algebra.Order.BigOperators.Group.List
import Mathlib.Algebra.Order.Group.Nat

/-!
# How long a launch can last

If the waits for joining and for the beginning have deadlines, each role has carried out its plan by
a time that is known beforehand. After that only the wait for the end of the session can last.
-/

namespace Labyrinth

open Coordinator Engine Timeline StateTransition Room
open Rendezvous (eventsLeft pauses)

/-- No role gives up by itself, each pause takes some time, and all waits but the last have
deadlines. -/
structure Launch.Bounded (l : Launch) : Prop where
  cancellation : l.cancellation = none
  joinInterval : 0 < l.settings.coordinator.joining.interval
  joinDeadline : l.settings.coordinator.joining.deadline.isSome
  beginInterval : 0 < l.settings.coordinator.beginning.interval
  beginDeadline : l.settings.coordinator.beginning.deadline.isSome
  endInterval : 0 < l.settings.coordinator.ending.interval

/-- A role does not probe so many endpoints for longer. -/
def Launch.Settings.probeSpan (s : Settings) (endpoints : Nat) : Nat :=
  endpoints * s.coordinator.probeTimeout.getD 0

/-- The role has not tried to join yet. -/
def Coordinator.Phase.isPreparing : Phase → Bool
  | .fresh | .probing _ _ _ => true
  | _ => false

namespace Venture

variable (V : Venture)

def settings : Coordinator.Settings := V.launch.settings.coordinator

def latency : Nat := V.engine.options.creationLatency

def probeSpan : Nat := V.launch.settings.probeSpan V.launch.pool.size

/-- By then every role has probed the endpoints. -/
def probedBy : Nat := V.launch.settings.stagger + V.probeSpan

/-- By then every role is in the session or has given up. -/
def joinedBy : Nat :=
  V.probedBy + V.settings.joining.deadline.getD 0 + V.settings.joining.interval + V.latency

/-- By then no role waits for the session to begin. -/
def begunBy : Nat :=
  V.joinedBy + V.settings.beginning.deadline.getD 0 + V.settings.beginning.interval

/-- No plan has more actions than that. -/
def planSize : Nat := (V.launch.plans.map fun p => p.2.length).sum

/-- By then no role is on its way. -/
def walkedBy : Nat := V.begunBy + V.planSize * V.settings.pacing

/-! ## When a role goes on -/

/-- A role that starts at `start` or earlier has not tried to join yet. It goes on at the time, early
enough to probe the rest of the endpoints. -/
def Prepares (start time : Nat) : Phase → Prop
  | .fresh => time ≤ start
  | .probing limit _ rest =>
    limit = V.settings.probeTimeout.getD 0 ∧ time + rest.length * limit ≤ start + V.probeSpan
  | _ => False

/-- A role in the phase goes on at the time at the latest. -/
def InTime (time : Nat) : Phase → Prop
  | .fresh => V.Prepares V.launch.settings.stagger time .fresh
  | .probing limit endpoint rest =>
    V.Prepares V.launch.settings.stagger time (.probing limit endpoint rest)
  | .joining loop .answer =>
    loop.policy = V.settings.joining ∧ loop.startedAt ≤ V.probedBy ∧ time ≤ V.joinedBy
  | .joining loop .pause =>
    loop.policy = V.settings.joining ∧ loop.startedAt ≤ V.probedBy ∧
      time + V.latency ≤ V.joinedBy
  | .awaitingBegin loop _ =>
    loop.policy = V.settings.beginning ∧ loop.startedAt ≤ V.joinedBy ∧ time ≤ V.begunBy
  | .sending _ rest | .observing _ rest | .publishing _ rest =>
    time + (rest.length + 1) * V.settings.pacing ≤ V.walkedBy
  | .pacing rest | .checking rest => time + rest.length * V.settings.pacing ≤ V.walkedBy
  | .quitting => time ≤ V.walkedBy
  | .awaitingEnd _ _ => True
  | .terminated _ _ => False

/-- How long a role in the phase waits at most. -/
def patience : Phase → Nat
  | .probing limit _ _ => limit
  | .joining _ .answer => V.latency
  | .joining loop .pause | .awaitingBegin loop .pause | .awaitingEnd loop .pause =>
    loop.policy.interval
  | .pacing _ => V.settings.pacing
  | _ => 0

variable {V : Venture} {r : Role} {c : Coordinator} {now time time' order : Nat} {p p' : Phase}
  {e : Event} {log log' : List Exchange} {session? session?' : Option Session}
  {due : Due World.Pending} {plan : List Action}

theorem probedBy_le_joinedBy : V.probedBy ≤ V.joinedBy :=
  Nat.le_trans (Nat.le_add_right _ _) (Nat.le_trans (Nat.le_add_right _ _) (Nat.le_add_right _ _))

theorem joinedBy_le_begunBy : V.joinedBy ≤ V.begunBy :=
  Nat.le_trans (Nat.le_add_right _ _) (Nat.le_add_right _ _)

theorem begunBy_le_walkedBy : V.begunBy ≤ V.walkedBy := Nat.le_add_right _ _

theorem length_le_planSize (hplan : (V.brief r).plan = some plan) : plan.length ≤ V.planSize := by
  have hlookup : V.launch.plans.lookup r = some plan := hplan
  obtain ⟨before, after, hplans, -⟩ := List.lookup_eq_some_iff.mp hlookup
  refine List.le_sum_of_mem (List.mem_map.mpr ⟨(r, plan), ?_, rfl⟩)
  simp [hplans]

/-! ### Probing -/

theorem Prepares.le {start : Nat} (h : V.Prepares start time p) : time ≤ start + V.probeSpan := by
  cases p with
  | fresh => exact Nat.le_trans h (Nat.le_add_right _ _)
  | probing => exact Nat.le_trans (Nat.le_add_right _ _) h.2
  | _ => exact h.elim

theorem Prepares.earlier {start : Nat} (h : V.Prepares start time p) (hle : time' ≤ time) :
    V.Prepares start time' p := by
  cases p with
  | fresh => exact Nat.le_trans hle h
  | probing => exact ⟨h.1, Nat.le_trans (Nat.add_le_add_right hle _) h.2⟩
  | _ => exact h.elim

theorem Prepares.leads {x : Cancellation} {start : Nat} (h : V.Prepares start time p)
    (leads : Leads (V.brief r) x time p e p') (hwait : time' ≤ time + V.patience p') :
    V.Prepares start time' p' ∨ p' = .joining ⟨V.settings.joining, time, 1⟩ .answer ∨ p'.isOver := by
  cases leads with
  | finish => exact .inr (.inr rfl)
  | probe wanted pool =>
    rename_i limit endpoint rest
    have hlimit : V.settings.probeTimeout = some limit := wanted
    have hspan : V.probeSpan = (rest.length + 1) * limit := by
      change V.launch.pool.endpoints.length * V.settings.probeTimeout.getD 0 = _
      rw [show V.launch.pool.endpoints = endpoint :: rest from pool, hlimit]
      rfl
    refine .inl ⟨by rw [hlimit]; rfl, ?_⟩
    rw [hspan, Nat.succ_mul]
    have hstart : time ≤ start := h
    have hwait : time' ≤ time + limit := hwait
    omega
  | probeNext limit endpoint next rest =>
    obtain ⟨hlimit, htime⟩ := h
    rw [List.length_cons, Nat.succ_mul] at htime
    have hwait : time' ≤ time + limit := hwait
    exact .inl ⟨hlimit, by omega⟩
  | join => exact .inr (.inl rfl)
  | _ => exact h.elim

/-! ### Every phase -/

theorem InTime.prepares (h : V.InTime time p) (hp : p.isPreparing) :
    V.Prepares V.launch.settings.stagger time p := by
  cases p with
  | fresh | probing => exact h
  | _ => cases hp

theorem Prepares.inTime (h : V.Prepares V.launch.settings.stagger time p) : V.InTime time p := by
  cases p with
  | fresh | probing => exact h
  | _ => exact h.elim

theorem InTime.le_walkedBy (h : V.InTime time p) (hend : ∀ loop wait, p ≠ .awaitingEnd loop wait) :
    time ≤ V.walkedBy := by
  have hjoined := joinedBy_le_begunBy (V := V)
  have hbegun := begunBy_le_walkedBy (V := V)
  cases p with
  | fresh | probing =>
    have hle : time ≤ V.joinedBy := Nat.le_trans (h.prepares rfl).le probedBy_le_joinedBy
    exact Nat.le_trans hle (Nat.le_trans hjoined hbegun)
  | joining loop wait =>
    cases wait with
    | answer => exact Nat.le_trans h.2.2 (Nat.le_trans hjoined hbegun)
    | pause =>
      have hle := Nat.le_trans (Nat.le_add_right _ _) h.2.2
      exact Nat.le_trans hle (Nat.le_trans hjoined hbegun)
  | awaitingBegin loop wait => exact Nat.le_trans h.2.2 hbegun
  | sending _ rest | observing _ rest | publishing _ rest | pacing rest | checking rest =>
    exact Nat.le_trans (Nat.le_add_right _ _) h
  | quitting => exact h
  | awaitingEnd loop wait => exact absurd rfl (hend loop wait)
  | terminated => exact h.elim

theorem InTime.isOver (h : V.InTime time p) : p.isOver = false := by
  cases p with
  | terminated => exact h.elim
  | _ => rfl

theorem le_of_not_isLate {loop : Retry} {policy : Retry.Policy} (hpolicy : loop.policy = policy)
    (hdeadline : policy.deadline.isSome) (h : loop.isLate time = false) :
    time ≤ loop.startedAt + policy.deadline.getD 0 := by
  obtain ⟨d, hd⟩ := Option.isSome_iff_exists.mp hdeadline
  subst hpolicy
  rw [hd, Option.getD_some]
  exact Retry.isLate_eq_false_iff.mp h d hd

theorem inTime_onward (h : time + plan.length * V.settings.pacing ≤ V.walkedBy)
    (hwait : time' ≤ time + V.patience (.onward plan)) : V.InTime time' (.onward plan) := by
  cases plan with
  | nil => exact Nat.le_trans hwait (Nat.le_trans (Nat.le_add_right _ _) h)
  | cons a rest => exact Nat.le_trans (Nat.add_le_add_right hwait _) h

theorem inTime_pacing {rest : List Action}
    (h : time + (rest.length + 1) * V.settings.pacing ≤ V.walkedBy)
    (hwait : time' ≤ time + V.settings.pacing) : V.InTime time' (.pacing rest) := by
  rw [Nat.succ_mul] at h
  change time' + rest.length * V.settings.pacing ≤ V.walkedBy
  omega

theorem InTime.leads (hV : V.launch.Bounded) (h : V.InTime time p)
    (leads : Leads (V.brief r) V.cancellation time p e p') (live : p'.isOver = false)
    (hwait : time' ≤ time + V.patience p') : V.InTime time' p' := by
  have hleads := leads
  cases leads with
  | finish => cases live
  | probe | probeNext =>
    exact (((h.prepares rfl).leads hleads hwait).resolve_right (by simp [Phase.isOver])).inTime
  | join early =>
    have hstart : time ≤ V.probedBy := by
      rcases early with ⟨rfl, rfl⟩ | ⟨limit, endpoint, reachable, rfl, rfl⟩ <;>
        exact (h.prepares rfl).le
    refine ⟨rfl, hstart, Nat.le_trans hwait (Nat.add_le_add_right ?_ _)⟩
    exact Nat.le_trans hstart (Nat.le_trans (Nat.le_add_right _ _) (Nat.le_add_right _ _))
  | joinPause loop _ punctual =>
    obtain ⟨hpolicy, hstart, -⟩ := h
    have hlate := le_of_not_isLate hpolicy hV.joinDeadline punctual
    refine ⟨hpolicy, hstart, ?_⟩
    have hspan : V.patience (.joining loop .pause) = V.settings.joining.interval :=
      congrArg Retry.Policy.interval hpolicy
    unfold joinedBy settings at *
    omega
  | rejoin loop rested =>
    obtain ⟨hpolicy, hstart, htime⟩ := h
    exact ⟨hpolicy, hstart, Nat.le_trans hwait htime⟩
  | admitted loop =>
    obtain ⟨-, -, htime⟩ := h
    exact ⟨rfl, htime, Nat.le_trans hwait (Nat.le_trans htime joinedBy_le_begunBy)⟩
  | beginPause loop a punctual =>
    obtain ⟨hpolicy, hstart, -⟩ := h
    have hlate := le_of_not_isLate hpolicy hV.beginDeadline punctual
    refine ⟨hpolicy, hstart, ?_⟩
    have hspan : V.patience (.awaitingBegin loop .pause) = V.settings.beginning.interval :=
      congrArg Retry.Policy.interval hpolicy
    unfold begunBy settings at *
    omega
  | beginPoll loop rested =>
    obtain ⟨hpolicy, hstart, htime⟩ := h
    exact ⟨hpolicy, hstart, Nat.le_trans hwait htime⟩
  | idle | delivered | quit | endPause | endPoll => trivial
  | depart loop a plan hplan =>
    obtain ⟨-, -, htime⟩ := h
    refine inTime_onward ?_ hwait
    exact Nat.add_le_add htime (Nat.mul_le_mul_right _ (length_le_planSize hplan))
  | observe a rest answer => exact Nat.le_trans (Nat.add_le_add_right hwait _) h
  | pace a rest answer => exact inTime_pacing h hwait
  | publish a rest o snapshot => exact Nat.le_trans (Nat.add_le_add_right hwait _) h
  | published snapshot rest => exact inTime_pacing h hwait
  | check rest => exact Nat.le_trans (Nat.add_le_add_right hwait _) h
  | proceed rest a => exact inTime_onward h hwait

/-! ## Steps -/

section Steps

variable {logs : Nat → List Exchange} {tl tl' : Room} {t : Track World.Pending} {i : Nat}

theorem Chronicle.leads (h : V.Chronicle logs tl) (track : tl.tracks[i]? = some t)
    (waiting : t.state = .waiting time order due)
    (hears : V.Hears time due (logs i) tl.world e log session?) :
    Leads (V.brief ⟨i⟩) V.cancellation time t.coordinator.phase e
      (V.next t.coordinator time e).phase := by
  have hlived := h.lived track
  generalize logs i = log₀ at hlived hears
  generalize tl.world = world at hears
  cases hlived with
  | fresh =>
    cases waiting
    cases hears
    exact leads_start
  | told history asked answers =>
    cases waiting
    cases hears
    exact (answers.told history.stands.brief asked).leads history.stands.brief
  | creating history asked role created since_le =>
    cases waiting
    cases hears
    have answers : Answers V.cancellation _ .join (.joined (.ok ())) time := .join since_le _
    exact (answers.told history.stands.brief asked).leads history.stands.brief
  | ended => cases waiting

theorem patience_of_nap {span : Nat} (asked : c.request = some (.nap span))
    (hbrief : c.brief = V.brief r) : V.patience c.phase = span := by
  unfold Coordinator.request at asked
  split at asked <;> cases asked <;> rename_i hphase <;> rw [hphase]
  · rfl
  · rfl
  · rw [hbrief]
    rfl
  · rfl

theorem Asks.le_patience
    (asks : V.Asks c time log session? (.waiting time' order due) log' session?')
    (hbrief : c.brief = V.brief r) : time' ≤ time + V.patience c.phase := by
  cases asks with
  | naps asked =>
    rw [patience_of_nap asked hbrief]
    exact Cancellation.wokenAt_nap_le _ _ _
  | probes asked dial punctual =>
    refine Nat.add_le_add_left ?_ time
    unfold Coordinator.request at asked
    split at asked <;> cases asked
    rename_i hphase
    rw [hphase]
    exact punctual
  | served => exact Nat.le_add_right _ _
  | creates asked =>
    unfold Coordinator.request at asked
    split at asked <;> cases asked
    rename_i hphase
    rw [hphase]
    exact Nat.le_refl _

theorem Chronicle.of_endPause {loop : Retry} {due' : Due World.Pending} {order' : Nat}
    (h : V.Chronicle logs tl) (track : tl.tracks[i]? = some t)
    (waiting : t.state = .waiting time order due)
    (hears : V.Hears time due (logs i) tl.world e log session?)
    (history : History (V.brief ⟨i⟩) V.cancellation log (V.next t.coordinator time e) time)
    (asks : V.Asks (V.next t.coordinator time e) time log session? (.waiting time' order' due') log'
      session?')
    (hphase : (V.next t.coordinator time e).phase = .awaitingEnd loop .pause) :
    t.coordinator.phase = .awaitingEnd loop .answer ∧
      (∃ s : Status, due = .event (.status (.ok s)) ∧ s.isRunning) ∧
      time' ≤ time + V.settings.ending.interval := by
  have hleads := h.leads track waiting hears
  have hpatience := asks.le_patience history.stands.brief
  obtain ⟨-, -, hpolicy⟩ : Admitted _ ∧ Finished _ _ ∧ loop.policy = V.settings.ending :=
    history.stands.behind_of_phase hphase
  rw [hphase] at hleads hpatience
  obtain ⟨hbefore, s, rfl, hrun⟩ := hleads.of_endPause
  exact ⟨hbefore, ⟨s, hears.of_status, hrun⟩, hpolicy ▸ hpatience⟩

theorem Asks.isOver (asks : V.Asks c time log session? (.waiting time' order due) log' session?') :
    c.phase.isOver = false := by
  cases asks with
  | naps asked | probes asked | served asked | creates asked => exact isOver_of_request asked

theorem Chronicle.inTime (hV : V.launch.Bounded) (h : V.Chronicle logs tl)
    (ht : tl.tracks[i]? = some t) (hstate : t.state = .waiting time order due) :
    V.InTime time t.coordinator.phase := by
  induction h generalizing i t time order due with
  | start =>
    obtain rfl := track_start ht
    cases hstate
    exact V.launch.startTime_le_stagger _
  | goOn h _ stride ih =>
    obtain ⟨track, waiting, first, hears, history, asks, changed⟩ := stride
    rcases changed.getElem?_eq_some ht with ⟨rfl, rfl⟩ | ⟨-, ht⟩
    · dsimp only at hstate ⊢
      subst hstate
      exact (ih track waiting).leads hV (h.leads track waiting hears) asks.isOver
        (asks.le_patience history.stands.brief)
    · exact ih ht hstate

/-! ## What is left to do -/

/-- How many events a phase is from the end, loops left out. A fresh role may have to probe. -/
def stepsLeft (V : Venture) : Phase → Nat
  | .fresh => eventsLeft V.planSize .fresh + V.launch.pool.size
  | p => eventsLeft V.planSize p

theorem stepsLeft_onward (V : Venture) (plan : List Action) :
    V.stepsLeft (.onward plan) = 5 * plan.length + 2 := by
  cases plan <;> rfl

theorem stepsLeft_pos (live : p.isOver = false) : 0 < V.stepsLeft p := by
  cases p with
  | fresh | probing => exact Nat.lt_of_lt_of_le (Nat.succ_pos _) (Nat.le_add_right _ _)
  | terminated => cases live
  | joining loop wait | awaitingBegin loop wait | awaitingEnd loop wait =>
    cases wait <;> exact Nat.succ_pos _
  | _ => exact Nat.succ_pos _

/-- Each event brings a role closer to its end, unless it goes into a pause. -/
theorem stepsLeft_lt (leads : Leads (V.brief r) V.cancellation time p e p') :
    V.stepsLeft p' < V.stepsLeft p + 2 * pauses p' := by
  cases leads with
  | finish live => exact Nat.lt_add_right _ (stepsLeft_pos live)
  | depart loop a plan hplan =>
    have hlength := length_le_planSize hplan
    rw [stepsLeft_onward]
    change _ < 5 * V.planSize + 3 + _
    omega
  | proceed rest a =>
    rw [stepsLeft_onward]
    change _ < 5 * rest.length + 3 + _
    omega
  | probe _ pool =>
    have hsize : V.launch.pool.size = _ + 1 := congrArg List.length pool
    simp [stepsLeft, eventsLeft, pauses, hsize]
  | join early =>
    rcases early with ⟨rfl, rfl⟩ | ⟨limit, endpoint, reachable, rfl, rfl⟩
    · simp only [stepsLeft, eventsLeft, pauses]
      omega
    · simp [stepsLeft, eventsLeft, pauses]
  | probeNext | joinPause | rejoin | admitted | beginPause | beginPoll | idle | observe | pace | publish
  | published | check | delivered | quit | endPause | endPoll =>
    simp [stepsLeft, eventsLeft, pauses]

/-- What is left to a role that goes on at the time, if all pauses end by `horizon`. -/
def left (V : Venture) (horizon : Nat) (p : Phase) (time : Nat) : Nat :=
  2 * (horizon - time) + V.stepsLeft p

theorem left_lt {horizon : Nat} (leads : Leads (V.brief r) V.cancellation time p e p')
    (hle : time + pauses p' ≤ time') (hpause : pauses p' ≠ 0 → time' ≤ horizon) :
    V.left horizon p' time' < V.left horizon p time := by
  have hlt := stepsLeft_lt leads
  unfold left
  by_cases hzero : pauses p' = 0
  · omega
  · have := hpause hzero
    omega

def trackLeft (V : Venture) (horizon : Nat) (t : Track World.Pending) : Nat :=
  match t.state with
  | .waiting time _ _ => V.left horizon t.coordinator.phase time
  | .ended _ => 0

def timelineLeft (V : Venture) (horizon : Nat) (tl : Room) : Nat :=
  (tl.tracks.map (V.trackLeft horizon)).sum

theorem Asks.pauses_le (hV : V.launch.Bounded)
    (asks : V.Asks c time log session? (.waiting time' order due) log' session?')
    (history : History (V.brief r) V.cancellation log c time) (h : V.InTime time' c.phase) :
    time + pauses c.phase ≤ time' := by
  cases asks with
  | naps asked =>
    rw [show V.cancellation = none from hV.cancellation] at h ⊢
    unfold Coordinator.request at asked
    split at asked <;> cases asked <;> rename_i hphase <;> rw [hphase] at h ⊢
    · have hpos := hV.joinInterval
      exact Nat.add_le_add_left (h.1 ▸ hpos) time
    · have hpos := hV.beginInterval
      exact Nat.add_le_add_left (h.1 ▸ hpos) time
    · exact Nat.le_add_right _ _
    · obtain ⟨-, -, hpolicy⟩ : Admitted log ∧ Finished (V.brief r) log ∧ _ :=
        history.stands.behind_of_phase hphase
      have hpos := hV.endInterval
      exact Nat.add_le_add_left (hpolicy ▸ hpos) time
  | probes asked =>
    unfold Coordinator.request at asked
    split at asked <;> cases asked
    rename_i hphase
    rw [hphase]
    exact Nat.le_add_right _ _
  | served asked serves =>
    unfold Coordinator.request at asked
    split at asked <;> cases asked <;> rename_i hphase <;> rw [hphase]
    any_goals cases serves
    all_goals exact Nat.le_refl _
  | creates asked =>
    unfold Coordinator.request at asked
    split at asked <;> cases asked
    rename_i hphase
    rw [hphase]
    exact Nat.le_add_right _ _

theorem Stride.left_lt {logs' : Nat → List Exchange} {horizon : Nat} (hV : V.launch.Bounded)
    (h : V.Chronicle logs tl) (stride : V.Stride logs tl logs' tl')
    (hpause : ∀ t ∈ tl'.tracks, ∀ time order due, t.state = .waiting time order due →
      pauses t.coordinator.phase ≠ 0 → time ≤ horizon) :
    V.timelineLeft horizon tl' < V.timelineLeft horizon tl := by
  obtain ⟨track, waiting, first, hears, history, asks, changed⟩ := stride
  rename_i i time order t due event _ _ _ _ state
  have hmem : ⟨V.next t.coordinator time event, state⟩ ∈ tl'.tracks := by
    rw [changed.tracks]
    exact List.mem_set (List.getElem?_eq_some_iff.mp track).1 _
  have hin := h.inTime hV track waiting
  have hleads := h.leads track waiting hears
  rw [timelineLeft, changed.tracks]
  refine sum_map_set_lt track ?_
  rw [show V.trackLeft horizon t = V.left horizon t.coordinator.phase time by
    rw [trackLeft, waiting]]
  cases state with
  | ended report => exact Nat.lt_of_lt_of_le (stepsLeft_pos hin.isOver) (Nat.le_add_left _ _)
  | waiting time' order' due' =>
    have hin' := hin.leads hV hleads asks.isOver (asks.le_patience history.stands.brief)
    exact Venture.left_lt hleads (asks.pauses_le hV history hin') (hpause _ hmem _ _ _ rfl)

/-- A launch ends if the pauses of its last loops do. -/
theorem exists_end (hV : V.launch.Bounded) {horizon : Nat} (hwalked : V.walkedBy ≤ horizon)
    (hlast : ∀ tl, Reaches V.step V.start tl → ∀ t ∈ tl.tracks, ∀ loop time order due,
      t.coordinator.phase = .awaitingEnd loop .pause → t.state = .waiting time order due →
      time ≤ horizon) : ∃ tl, tl ∈ eval V.step V.start := by
  have hstep : ∀ tl tl' : Room, (∃ logs, V.Chronicle logs tl) →
      tl.step V.surroundings V.cancellation = some tl' →
      (∃ logs, V.Chronicle logs tl') ∧ V.timelineLeft horizon tl' < V.timelineLeft horizon tl := by
    rintro tl tl' ⟨logs, h⟩ hstep
    obtain ⟨logs', stride⟩ := h.exists_stride hstep
    have h' := h.goOn hstep stride
    refine ⟨⟨logs', h'⟩, stride.left_lt hV h fun t ht time order due hstate hpause => ?_⟩
    obtain ⟨i, hi⟩ := List.getElem?_of_mem ht
    have hin := h'.inTime hV hi hstate
    by_cases hend : ∃ loop, t.coordinator.phase = .awaitingEnd loop .pause
    · obtain ⟨loop, hphase⟩ := hend
      exact hlast tl' h'.reaches t ht loop time order due hphase hstate
    · refine Nat.le_trans (hin.le_walkedBy fun loop wait hphase => ?_) hwalked
      cases wait with
      | answer => exact hpause (by rw [hphase]; rfl)
      | pause => exact hend ⟨loop, hphase⟩
  obtain ⟨fuel, tl, hrun, -⟩ := Timeline.exists_run hstep ⟨_, .start⟩
  exact ⟨tl, mem_eval_iff_exists_run.mpr ⟨fuel, hrun⟩⟩

end Steps

end Venture

end Labyrinth

import Labyrinth.Timeline.Basic
import Mathlib.Algebra.GroupWithZero.Nat
import Mathlib.Data.List.Basic

/-!
# Steps of a timeline

A step lets one track go on whose time is the earliest. It changes that track, the surroundings and
the clock, and nothing else. Which of several earliest tracks it is does not matter here.
-/

namespace Labyrinth

open Coordinator Timeline

variable {ω π : Type}

/-! ## The track whose turn it is -/

namespace Timeline

variable {tracks : List (Track π)}

theorem exists_earliest (f : Turn) (turns : List Turn) :
    ∃ u ∈ f :: turns, turns.foldl earlier (some f) = some u ∧
      ∀ t ∈ f :: turns, u.time ≤ t.time := by
  induction turns generalizing f with
  | nil => exact ⟨f, List.mem_cons_self, rfl, by simp⟩
  | cons t turns ih =>
    by_cases hbefore : t.before f
    · obtain ⟨u, hu, heq, hall⟩ := ih t
      refine ⟨u, List.mem_cons_of_mem _ hu, ?_, List.forall_mem_cons.mpr ⟨?_, hall⟩⟩
      · rw [List.foldl_cons, earlier, if_pos hbefore, heq]
      · have hle : t.time ≤ f.time := by
          rw [Turn.before, decide_eq_true_eq] at hbefore
          omega
        exact Nat.le_trans (hall t List.mem_cons_self) hle
    · obtain ⟨u, hu, heq, hall⟩ := ih f
      refine ⟨u, ?_, ?_, ?_⟩
      · rcases List.mem_cons.mp hu with rfl | hu
        · exact List.mem_cons_self
        · exact List.mem_cons_of_mem _ (List.mem_cons_of_mem _ hu)
      · rw [List.foldl_cons, earlier, if_neg hbefore, heq]
      · have hle : f.time ≤ t.time := by
          rw [Turn.before, decide_eq_true_eq] at hbefore
          omega
        obtain ⟨hf, hrest⟩ := List.forall_mem_cons.mp hall
        exact List.forall_mem_cons.mpr ⟨hf, List.forall_mem_cons.mpr ⟨Nat.le_trans hf hle, hrest⟩⟩

theorem mem_turns (turn : Turn) :
    turn ∈ (tracks.zipIdx.filterMap fun (t, i) => t.turn? i) ↔
      ∃ t, tracks[turn.index]? = some t ∧ ∃ due, t.state = .waiting turn.time turn.order due := by
  simp only [List.mem_filterMap, Prod.exists, List.mem_zipIdx_iff_getElem?]
  constructor
  · rintro ⟨t, i, ht, hturn⟩
    unfold Track.turn? at hturn
    split at hturn
    · rename_i time order due hstate
      obtain rfl := Option.some.inj hturn
      exact ⟨t, ht, due, hstate⟩
    · cases hturn
  · rintro ⟨t, ht, due, hstate⟩
    exact ⟨t, turn.index, ht, by simp only [Track.turn?, hstate]⟩

theorem firstTurn_eq_some {turn : Turn} (h : firstTurn tracks = some turn) :
    (∃ t due, tracks[turn.index]? = some t ∧ t.state = .waiting turn.time turn.order due) ∧
      ∀ t ∈ tracks, ∀ time order due, t.state = .waiting time order due → turn.time ≤ time := by
  cases hturns : tracks.zipIdx.filterMap fun (t, i) => t.turn? i with
  | nil =>
    rw [firstTurn, hturns] at h
    cases h
  | cons f turns =>
    obtain ⟨u, hu, heq, hall⟩ := exists_earliest f turns
    rw [firstTurn, hturns] at h
    obtain rfl : u = turn := Option.some.inj (heq.symm.trans h)
    rw [← hturns] at hu hall
    obtain ⟨t, ht, due, hstate⟩ := (mem_turns u).mp hu
    refine ⟨⟨t, due, ht, hstate⟩, fun s hs time order due hstate => ?_⟩
    obtain ⟨i, hi⟩ := List.getElem?_of_mem hs
    exact hall _ ((mem_turns ⟨time, order, i⟩).mpr ⟨s, hi, due, hstate⟩)

theorem exists_firstTurn {t : Track π} {time order : Nat} {due : Due π} (ht : t ∈ tracks)
    (hstate : t.state = .waiting time order due) : ∃ turn, firstTurn tracks = some turn := by
  obtain ⟨i, hi⟩ := List.getElem?_of_mem ht
  have hmem := (mem_turns ⟨time, order, i⟩).mpr ⟨t, hi, due, hstate⟩
  obtain ⟨f, turns, hturns⟩ := List.exists_cons_of_ne_nil (List.ne_nil_of_mem hmem)
  obtain ⟨u, -, heq, -⟩ := exists_earliest f turns
  exact ⟨u, by rw [firstTurn, hturns]; exact heq⟩

end Timeline

/-! ## How a track goes on -/

namespace Surroundings

def occur (s : Surroundings ω π) (b : Brief) (time : Nat) (world : ω) :
    Due π → Option Event × ω
  | .event e => (some e, world)
  | .settle pending => s.settle b pending time world

/-- What becomes of a track whose coordinator has moved on to `c`, if a wait gets the order `o`. -/
def follow (s : Surroundings ω π) (cancellation : Cancellation) (t : Track π) (c : Coordinator)
    (now : Nat) (world : ω) (o : Nat) : Track π × ω :=
  match c.report?, c.request with
  | some r, _ => (⟨c, .ended r⟩, world)
  | none, some (.nap span) =>
    let nap := cancellation.nap now span
    (⟨c, .waiting nap.wokenAt o (.event (.woken nap.rested))⟩, world)
  | none, some request =>
    match s.take c.brief request now world with
    | (.event e, world) => (⟨c, .waiting now o (.event e)⟩, world)
    | (.after span e, world) => (⟨c, .waiting (now + span) o (.event e)⟩, world)
    | (.later span pending, world) => (⟨c, .waiting (now + span) o (.settle pending)⟩, world)
    | (.crash, world) => (t.lost, world)
  | none, none => (t.lost, world)

def resume (s : Surroundings ω π) (cancellation : Cancellation) (t : Track π) (time : Nat)
    (due : Due π) (world : ω) (o : Nat) : Track π × ω :=
  match s.occur t.coordinator.brief time world due with
  | (none, world) => (t.lost, world)
  | (some e, world) =>
    let c := t.coordinator.advance ⟨time, cancellation.reached time⟩ e
    s.follow cancellation t c time world o

section Follow

variable {s : Surroundings ω π} {cancellation : Cancellation} {t : Track π} {c : Coordinator}
  {now o span : Nat} {world world' : ω}

theorem report?_eq_none {request : Request} (h : c.request = some request) : c.report? = none := by
  unfold Coordinator.request at h
  unfold Coordinator.report?
  split at h <;> simp_all

theorem follow_report {r : Report} (h : c.report? = some r) :
    s.follow cancellation t c now world o = (⟨c, .ended r⟩, world) := by
  simp only [follow, h]

theorem follow_nap (h : c.request = some (.nap span)) :
    s.follow cancellation t c now world o =
      (⟨c, .waiting (cancellation.nap now span).wokenAt o
        (.event (.woken (cancellation.nap now span).rested))⟩, world) := by
  simp only [follow, report?_eq_none h, h]

theorem follow_event {request : Request} {e : Event} (h : c.request = some request)
    (hnap : ∀ span, request ≠ .nap span)
    (htake : s.take c.brief request now world = (.event e, world')) :
    s.follow cancellation t c now world o = (⟨c, .waiting now o (.event e)⟩, world') := by
  cases request
  case nap span => exact absurd rfl (hnap span)
  all_goals simp only [follow, report?_eq_none h, h, htake]

theorem follow_after {request : Request} {e : Event} (h : c.request = some request)
    (hnap : ∀ span, request ≠ .nap span)
    (htake : s.take c.brief request now world = (.after span e, world')) :
    s.follow cancellation t c now world o = (⟨c, .waiting (now + span) o (.event e)⟩, world') := by
  cases request
  case nap span => exact absurd rfl (hnap span)
  all_goals simp only [follow, report?_eq_none h, h, htake]

theorem follow_later {request : Request} {pending : π} (h : c.request = some request)
    (hnap : ∀ span, request ≠ .nap span)
    (htake : s.take c.brief request now world = (.later span pending, world')) :
    s.follow cancellation t c now world o =
      (⟨c, .waiting (now + span) o (.settle pending)⟩, world') := by
  cases request
  case nap span => exact absurd rfl (hnap span)
  all_goals simp only [follow, report?_eq_none h, h, htake]

theorem follow_crash {request : Request} (h : c.request = some request)
    (hnap : ∀ span, request ≠ .nap span)
    (htake : s.take c.brief request now world = (.crash, world')) :
    s.follow cancellation t c now world o = (t.lost, world') := by
  cases request
  case nap span => exact absurd rfl (hnap span)
  all_goals simp only [follow, report?_eq_none h, h, htake]

end Follow

end Surroundings

namespace Timeline

variable {s : Surroundings ω π} {cancellation : Cancellation} {tl tl' : Timeline ω π}

structure Changed (tracks : List (Track π)) (i now : Nat) (r : Track π × ω) (tl : Timeline ω π) :
    Prop where
  now : tl.now = now
  tracks : tl.tracks = tracks.set i r.1
  world : tl.world = r.2

theorem Changed.getElem?_eq_some {tracks : List (Track π)} {i now j : Nat} {r : Track π × ω}
    {t : Track π} (h : Changed tracks i now r tl) (ht : tl.tracks[j]? = some t) :
    j = i ∧ t = r.1 ∨ j ≠ i ∧ tracks[j]? = some t := by
  rw [h.tracks, List.getElem?_set] at ht
  split at ht
  · split at ht
    · exact .inl ⟨Eq.symm ‹_›, (Option.some.inj ht).symm⟩
    · cases ht
  · exact .inr ⟨Ne.symm ‹_›, ht⟩

theorem wait_changed (tl : Timeline ω π) (i : Nat) (c : Coordinator) (order time : Nat)
    (due : Due π) :
    ∃ o, Changed tl.tracks i tl.now (⟨c, .waiting time o due⟩, tl.world)
      (tl.wait i c order time due) := by
  unfold wait
  split
  · exact ⟨order, rfl, rfl, rfl⟩
  · exact ⟨tl.waits, rfl, rfl, rfl⟩

theorem modify_lost {i : Nat} {t : Track π} {tracks : List (Track π)} (ht : tracks[i]? = some t) :
    tracks.modify i Track.lost = tracks.set i t.lost := by
  obtain ⟨hi, rfl⟩ := List.getElem?_eq_some_iff.mp ht
  refine List.ext_getElem (by simp) fun j hj _ => ?_
  rw [List.getElem_modify, List.getElem_set]
  split
  · subst i
    rfl
  · rfl

theorem ask_changed (tl : Timeline ω π) {i : Nat} {t : Track π} (ht : tl.tracks[i]? = some t)
    (c : Coordinator) (order : Nat) :
    ∃ o, Changed tl.tracks i tl.now (s.follow cancellation t c tl.now tl.world o)
      (tl.ask s cancellation i c order) := by
  have hlost := modify_lost ht
  cases hreport : c.report? with
  | some r =>
    simp only [ask, Surroundings.follow, hreport]
    exact ⟨order, rfl, rfl, rfl⟩
  | none =>
    cases hrequest : c.request with
    | none =>
      simp only [ask, Surroundings.follow, hreport, hrequest]
      exact ⟨order, rfl, hlost, rfl⟩
    | some request =>
      cases htake : s.take c.brief request tl.now tl.world with
      | mk reply world =>
        cases request
        case nap span =>
          simp only [ask, Surroundings.follow, hreport, hrequest]
          exact wait_changed tl i c order _ _
        all_goals
          simp only [ask, Surroundings.follow, hreport, hrequest, htake]
          cases reply <;> dsimp only
          · exact wait_changed { tl with world } i c order _ _
          · exact wait_changed { tl with world } i c order _ _
          · exact wait_changed { tl with world } i c order _ _
          · exact ⟨order, rfl, hlost, rfl⟩

theorem step_eq_some (h : tl.step s cancellation = some tl') :
    ∃ i t time order due o, tl.tracks[i]? = some t ∧ t.state = .waiting time order due ∧
      (∀ u ∈ tl.tracks, ∀ time' order' due', u.state = .waiting time' order' due' →
        time ≤ time') ∧
      Changed tl.tracks i time (s.resume cancellation t time due tl.world o) tl' := by
  rw [step, Option.bind_eq_bind, Option.bind_eq_some_iff] at h
  obtain ⟨turn, hturn, h⟩ := h
  obtain ⟨⟨t, due, ht, hstate⟩, hfirst⟩ := firstTurn_eq_some hturn
  simp only [ht, hstate, Option.bind_eq_bind, Option.bind_some] at h
  suffices ∃ o, Changed tl.tracks turn.index turn.time
      (s.resume cancellation t turn.time due tl.world o) tl' by
    obtain ⟨o, ho⟩ := this
    exact ⟨turn.index, t, turn.time, turn.order, due, o, ht, hstate, hfirst, ho⟩
  have hask : ∀ world c, ∃ o, Changed tl.tracks turn.index turn.time
      (s.follow cancellation t c turn.time world o)
      (ask s cancellation { tl with now := turn.time, world } turn.index c turn.order) :=
    fun world c => ask_changed { tl with now := turn.time, world } ht c turn.order
  cases due with
  | event e =>
    obtain rfl := Option.some.inj h
    exact hask tl.world _
  | settle pending =>
    simp only [Surroundings.resume, Surroundings.occur]
    cases hsettle : s.settle t.coordinator.brief pending turn.time tl.world with
    | mk event world =>
      simp only [hsettle] at h
      cases event <;> obtain rfl := Option.some.inj h
      · exact ⟨turn.order, rfl, modify_lost ht, rfl⟩
      · exact hask world _

theorem ended_of_step_eq_none (h : tl.step s cancellation = none) {t : Track π}
    (ht : t ∈ tl.tracks) : ∃ r, t.state = .ended r := by
  cases hstate : t.state with
  | ended r => exact ⟨r, rfl⟩
  | waiting time order due =>
    obtain ⟨turn, hturn⟩ := exists_firstTurn ht hstate
    obtain ⟨⟨u, due, hu, hwait⟩, -⟩ := firstTurn_eq_some hturn
    simp only [step, hturn, hu, hwait, Option.bind_eq_bind, Option.bind_some] at h
    split at h <;> cases h

/-! ## Whole runs -/

theorem sum_map_set_lt {α : Type} {f : α → Nat} {l : List α} {i : Nat} {a b : α}
    (ha : l[i]? = some a) (h : f b < f a) : ((l.set i b).map f).sum < (l.map f).sum := by
  induction l generalizing i with
  | nil => cases ha
  | cons x l ih =>
    cases i with
    | zero =>
      obtain rfl : x = a := Option.some.inj ha
      simpa using h
    | succ i => simpa using ih ha

theorem map_some_reports (h : ∀ t ∈ tl.tracks, ∃ r, t.state = .ended r) :
    tl.reports.map some = tl.tracks.map Track.report? := by
  rw [reports, List.map_filterMap, List.filterMap_eq_map_iff_forall_eq_some]
  intro t ht
  obtain ⟨r, hr⟩ := h t ht
  rw [Track.report?, hr]
  rfl

/-- An invariant under which each step lowers a measure holds when all tracks have ended, and they
do end. -/
theorem exists_run {P : Timeline ω π → Prop} {μ : Timeline ω π → Nat}
    (hstep : ∀ tl tl', P tl → tl.step s cancellation = some tl' → P tl' ∧ μ tl' < μ tl)
    {tl : Timeline ω π} (h : P tl) :
    ∃ fuel tl', tl.run s cancellation fuel = some tl' ∧ P tl' ∧
      ∀ t ∈ tl'.tracks, ∃ r, t.state = .ended r := by
  induction hn : μ tl using Nat.strongRecOn generalizing tl with
  | ind n ih =>
    cases hs : tl.step s cancellation with
    | none => exact ⟨1, tl, by rw [run, hs], h, fun _ => ended_of_step_eq_none hs⟩
    | some next =>
      obtain ⟨hP, hlt⟩ := hstep tl next h hs
      obtain ⟨fuel, tl', hrun, hend⟩ := ih (μ next) (hn ▸ hlt) hP rfl
      exact ⟨fuel + 1, tl', by rw [run, hs]; exact hrun, hend⟩

end Timeline

end Labyrinth

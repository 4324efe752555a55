import Labyrinth.Proofs.Coordinator.Later
import Labyrinth.Proofs.Timeline.Fleet

/-!
# Starting late

A track that starts at some time of a timeline goes through the same as one that runs alone on a
clock of its own, which starts with it.
-/

namespace Labyrinth

open Coordinator Timeline StateTransition

variable {σ π ω : Type} {T : Nat}

/-! ## A clock that starts at a time -/

/-- The same surroundings on a clock that started at `T`. -/
def Surroundings.since (s : Surroundings ω π) (T : Nat) : Surroundings ω π where
  take b request now := s.take b request (T + now)
  settle b p now := s.settle b p (T + now)

namespace Cancellation

variable {x : Cancellation} {now span : Nat}

def since (x : Cancellation) (T : Nat) : Cancellation := x.map (· - T)

theorem reached_since : (x.since T).reached now = x.reached (T + now) := by
  cases x with
  | none => rfl
  | some t =>
    have hle : t - T ≤ now ↔ t ≤ T + now := by omega
    exact decide_eq_decide.mpr hle

theorem nap_since (h : ∀ t ∈ x, T ≤ t) :
    x.nap (T + now) span =
      ⟨T + ((x.since T).nap now span).wokenAt, ((x.since T).nap now span).rested⟩ := by
  cases x with
  | none => simp only [nap, since, Option.map_none, Nat.add_assoc]
  | some t =>
    have hle : T ≤ t := h t rfl
    have hcut : t < T + now + span ↔ t - T < now + span := by omega
    simp only [nap, since, Option.map_some, hcut]
    split
    · simp only [Nap.mk.injEq, and_true]
      omega
    · simp only [Nap.mk.injEq, and_true]
      omega

end Cancellation

namespace Timeline

def State.later (T : Nat) : State π → State π
  | .waiting time order due => .waiting (T + time) order due
  | .ended r => .ended r

/-- The second lane is `T` ahead of the first one. -/
structure Later (T : Nat) (a a' : Track π × σ) : Prop where
  coordinator : Delayed T a.1.coordinator a'.1.coordinator
  state : a'.1.state = a.1.state.later T
  host : a'.2 = a.2

theorem Later.finalReport {a a' : Track π × σ} (h : Later T a a') :
    a'.1.finalReport = a.1.finalReport := by
  rw [Track.finalReport, Track.finalReport, h.coordinator.report?, h.coordinator.brief]

end Timeline

namespace Surroundings

variable {h : Surroundings σ π} {x : Cancellation} {t t' : Track π} {c c' : Coordinator}
  {now : Nat} {w : σ}

theorem take_unread_since (h : Surroundings σ π) (T : Nat) (b : Brief) (request : Request)
    (now : Nat) (w : σ) :
    (h.since T).unread.take b request now w = h.unread.take b (request.later T) (T + now) w := by
  cases request <;> rfl

theorem later_lost (ht : Delayed T t.coordinator t'.coordinator) (w : σ) :
    Later T (t.lost, w) (t'.lost, w) :=
  ⟨ht, by simp only [Track.lost, State.later, ht.brief], rfl⟩

theorem later_follow (hx : ∀ t ∈ x, T ≤ t) (ht : Delayed T t.coordinator t'.coordinator)
    (hc : Delayed T c c') :
    Later T ((h.since T).unread.follow (x.since T) t c now w 0)
      (h.unread.follow x t' c' (T + now) w 0) := by
  have hreport := hc.report?
  have hrequest := hc.request
  cases hr : c.report? with
  | some r =>
    rw [hr] at hreport
    simp only [follow, hr, hreport]
    exact ⟨hc, rfl, rfl⟩
  | none =>
    rw [hr] at hreport
    cases hq : c.request with
    | none =>
      rw [hq] at hrequest
      simp only [follow, hr, hreport, hq, hrequest, Option.map_none]
      exact later_lost ht w
    | some request =>
      rw [hq] at hrequest
      have htake := take_unread_since h T c.brief request now w
      rcases hs : (h.since T).unread.take c.brief request now w with ⟨reply, w'⟩
      rw [hs] at htake
      cases request
      case nap span =>
        simp only [follow, hr, hreport, hq, hrequest, Option.map_some, Request.later,
          Cancellation.nap_since hx]
        exact ⟨hc, rfl, rfl⟩
      all_goals
        simp only [follow, hr, hreport, hq, hrequest, Option.map_some, Request.later, hc.brief,
          hs] at htake ⊢
        rw [← htake]
        cases reply with
        | event e => exact ⟨hc, rfl, rfl⟩
        | after span e => exact ⟨hc, by simp only [State.later, Nat.add_assoc], rfl⟩
        | later span p => exact ⟨hc, by simp only [State.later, Nat.add_assoc], rfl⟩
        | crash => exact later_lost ht w'

theorem later_resume (hx : ∀ t ∈ x, T ≤ t) (ht : Delayed T t.coordinator t'.coordinator)
    (time : Nat) (due : Due π) (w : σ) :
    Later T ((h.since T).unread.resume (x.since T) t time due w 0)
      (h.unread.resume x t' (T + time) due w 0) := by
  have hoccur : h.unread.occur t'.coordinator.brief (T + time) w due =
      (h.since T).unread.occur t.coordinator.brief time w due := by
    rw [ht.brief]
    cases due <;> rfl
  simp only [resume, hoccur]
  rcases (h.since T).unread.occur t.coordinator.brief time w due with ⟨event, w'⟩
  cases event with
  | none => exact later_lost ht w'
  | some e =>
    have hadvance := ht.advance ⟨time, (x.since T).reached time⟩ e
    rw [Cancellation.reached_since] at hadvance ⊢
    exact later_follow hx ht hadvance

end Surroundings

namespace Fleet

variable {host : Role → Surroundings σ π} {x : Cancellation} {a a' : Track π × σ}

theorem later_goOn (host : Role → Surroundings σ π) (hx : ∀ t ∈ x, T ≤ t) (h : Later T a a') :
    Option.Rel (Later T) (goOn (fun q => (host q).since T) (x.since T) a) (goOn host x a') := by
  obtain ⟨t, w⟩ := a
  obtain ⟨t', w'⟩ := a'
  obtain ⟨hcoordinator, hstate, hhost⟩ := h
  dsimp only at hcoordinator hstate hhost
  subst hhost
  cases ht : t.state with
  | ended r =>
    rw [ht] at hstate
    simp only [goOn, ht, hstate, State.later]
    exact .none
  | waiting time order due =>
    rw [ht] at hstate
    simp only [goOn, ht, hstate, State.later, hcoordinator.brief]
    exact .some (Surroundings.later_resume hx hcoordinator time due w')

theorem exists_end_iff (hx : ∀ t ∈ x, T ≤ t) (h : Later T a a') (report : Report) :
    (∃ e ∈ eval (goOn (fun q => (host q).since T) (x.since T)) a, e.1.finalReport = report) ↔
      ∃ e ∈ eval (goOn host x) a', e.1.finalReport = report := by
  obtain ⟨hto, hback⟩ := respects_of_rel fun _ _ h => later_goOn host hx h
  constructor
  · rintro ⟨e, he, hreport⟩
    obtain ⟨e', hlater, he'⟩ := tr_eval hto h he
    exact ⟨e', he', hlater.finalReport.trans hreport⟩
  · rintro ⟨e', he', hreport⟩
    obtain ⟨e, hlater, he⟩ := tr_eval hback h he'
    exact ⟨e, he, (Later.finalReport hlater).symm.trans hreport⟩

theorem map_finalReport_lanes (tl : Timeline (Fleet σ) π) :
    (lanes tl).map (fun e => e.1.finalReport) = tl.tracks.map Track.finalReport := by
  rw [lanes, List.map_map]
  refine List.map_congr_left fun t _ => ?_
  simp only [Function.comp, lane, Track.finalReport, Track.coordinator_unordered]

theorem later_starting (b : Brief) (w : Fleet σ) (order : Nat) :
    Later T (lane w (.starting (π := π) b 0 0)) (lane w (.starting b T order)) :=
  ⟨.inr ⟨rfl, rfl⟩, rfl, rfl⟩

/-- A lane that starts at some time comes to the same report as its coordinator alone. -/
theorem exists_end_starting_iff (hx : ∀ t ∈ x, T ≤ t) (b : Brief) (w : Fleet σ) (order : Nat)
    (report : Report) :
    (∃ e ∈ eval (goOn host x) (lane w (.starting b T order)), e.1.finalReport = report) ↔
      ∃ fuel tl t, (alone b w).run (surroundings fun q => (host q).since T) (x.since T) fuel =
        some tl ∧ tl.tracks = [t] ∧ t.finalReport = report := by
  have hrun := exists_run_iff (fun q => (host q).since T) (x.since T)
    (fun e : Track π × σ => e.1.finalReport)
    (show (roles (alone (π := π) b w)).Nodup from List.nodup_singleton _) [report]
  have hfates : fates (fun q => (host q).since T) (x.since T) (alone b w) =
      [eval (goOn (fun q => (host q).since T) (x.since T)) (lane w (.starting b 0 0))] := rfl
  rw [hfates, List.forall₂_cons, and_iff_left .nil,
    exists_end_iff hx (later_starting b w order)] at hrun
  rw [← hrun]
  refine exists_congr fun fuel => exists_congr fun tl => ?_
  rw [map_finalReport_lanes, List.map_eq_singleton_iff, exists_and_left]

end Fleet

end Labyrinth

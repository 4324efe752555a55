import Labyrinth.Proofs.Timeline.Lockstep

/-!
# How tracks end

A track ends with the report of its coordinator, or it breaks down and is given up for lost. The two
can be told apart, since a coordinator that has a report has entered some stage before its end.
-/

namespace Labyrinth

open Coordinator Timeline StateTransition

variable {ω π : Type}

/-! ## What becomes of a track -/

namespace Surroundings

variable {s : Surroundings ω π} {x : Cancellation} {t : Track π} {c : Coordinator}
  {time now : Nat} {due : Due π} {w : ω}

/-- What becomes of a track whose coordinator has moved on to `c`. -/
inductive Followed (s : Surroundings ω π) (t : Track π) (c : Coordinator) (now : Nat) (w : ω) :
    Track π × ω → Prop where
  | ended (report : Report) (h : c.report? = some report) :
      Followed s t c now w (⟨c, .ended report⟩, w)
  | pausing (time o : Nat) (e : Event) (h : c.report? = none) :
      Followed s t c now w (⟨c, .waiting time o (.event e)⟩, w)
  | asking (request : Request) (time o : Nat) (due : Due π) (h : c.report? = none) :
      Followed s t c now w (⟨c, .waiting time o due⟩, (s.take c.brief request now w).2)
  | crashed (request : Request) (asked : c.request = some request)
      (hnap : ∀ span, request ≠ .nap span)
      (crash : (s.take c.brief request now w).1 = .crash) :
      Followed s t c now w (t.lost, (s.take c.brief request now w).2)
  | idle (h : c.report? = none) (asked : c.request = none) : Followed s t c now w (t.lost, w)

theorem followed (o : Nat) : Followed s t c now w (s.follow x t c now w o) := by
  cases hreport : c.report? with
  | some r =>
    simp only [Surroundings.follow, hreport]
    exact .ended r hreport
  | none =>
    cases hrequest : c.request with
    | none =>
      simp only [Surroundings.follow, hreport, hrequest]
      exact .idle hreport hrequest
    | some request =>
      by_cases hnap : ∃ span, request = .nap span
      · obtain ⟨span, rfl⟩ := hnap
        rw [follow_nap hrequest]
        exact .pausing _ _ _ hreport
      · have hnap : ∀ span, request ≠ .nap span := fun span heq => hnap ⟨span, heq⟩
        have hworld : ∀ {reply w'}, s.take c.brief request now w = (reply, w') →
            w' = (s.take c.brief request now w).2 := fun hs => by rw [hs]
        rcases hs : s.take c.brief request now w with ⟨reply, w'⟩
        cases reply with
        | event e =>
          rw [follow_event hrequest hnap hs, hworld hs]
          exact .asking _ _ _ _ hreport
        | after span e =>
          rw [follow_after hrequest hnap hs, hworld hs]
          exact .asking _ _ _ _ hreport
        | later span p =>
          rw [follow_later hrequest hnap hs, hworld hs]
          exact .asking _ _ _ _ hreport
        | crash =>
          rw [follow_crash hrequest hnap hs, hworld hs]
          exact .crashed request hrequest hnap (by rw [hs])

variable (s x t time due w) in
theorem resume_cases (o : Nat) :
    (s.occur t.coordinator.brief time w due).1 = none ∧
        s.resume x t time due w o = (t.lost, (s.occur t.coordinator.brief time w due).2) ∨
      ∃ e, (s.occur t.coordinator.brief time w due).1 = some e ∧
        Followed s t (t.coordinator.advance ⟨time, x.reached time⟩ e) time
          (s.occur t.coordinator.brief time w due).2 (s.resume x t time due w o) := by
  rcases hs : s.occur t.coordinator.brief time w due with ⟨event, w'⟩
  simp only [Surroundings.resume, hs]
  cases event with
  | none => exact .inl ⟨rfl, rfl⟩
  | some e => exact .inr ⟨e, rfl, followed o⟩

theorem keeps_resume {P : ω → Prop}
    (htake : ∀ request now w, P w → P (s.take t.coordinator.brief request now w).2)
    (hsettle : ∀ p now w, P w → P (s.settle t.coordinator.brief p now w).2) (hw : P w) (o : Nat) :
    P (s.resume x t time due w o).2 := by
  have hoccur : P (s.occur t.coordinator.brief time w due).2 := by
    cases due with
    | event e => exact hw
    | settle p => exact hsettle p time w hw
  have hcases := resume_cases s x t time due w o
  generalize s.resume x t time due w o = r at hcases ⊢
  rcases hcases with ⟨-, rfl⟩ | ⟨e, -, hfollowed⟩
  · exact hoccur
  · cases hfollowed with
    | ended | pausing | idle => exact hoccur
    | asking request | crashed request =>
      rw [brief_advance]
      exact htake request time _ hoccur

theorem brief_resume (o : Nat) :
    (s.resume x t time due w o).1.coordinator.brief = t.coordinator.brief := by
  have hcases := resume_cases s x t time due w o
  generalize s.resume x t time due w o = r at hcases ⊢
  rcases hcases with ⟨-, rfl⟩ | ⟨e, -, hfollowed⟩
  · rfl
  · cases hfollowed with
    | ended | pausing | asking => exact brief_advance e
    | crashed | idle => rfl

end Surroundings

/-! ## Reports of tracks -/

namespace Timeline

/-- The report of the coordinator, or else that of a lost one. -/
def Track.finalReport (t : Track π) : Report :=
  t.coordinator.report?.getD
    (.lost t.coordinator.brief.role (.taskFailed t.coordinator.brief.role))

theorem Track.role_finalReport (t : Track π) : t.finalReport.role = t.coordinator.brief.role := by
  unfold finalReport Coordinator.report?
  split <;> rfl

/-- The surroundings break down as soon as the track goes on. -/
inductive Track.BreaksDown (s : Surroundings ω π) (x : Cancellation) (w : ω) (t : Track π) : Prop
    where
  | settling (time order : Nat) (p : π) (state : t.state = .waiting time order (.settle p))
      (crash : (s.settle t.coordinator.brief p time w).1 = none)
  | asking (time order : Nat) (due : Due π) (e : Event) (request : Request)
      (state : t.state = .waiting time order due)
      (occurs : (s.occur t.coordinator.brief time w due).1 = some e)
      (asked : (t.coordinator.advance ⟨time, x.reached time⟩ e).request = some request)
      (crash : (∀ span, request ≠ .nap span) ∧ (s.take t.coordinator.brief request time
        (s.occur t.coordinator.brief time w due).2).1 = .crash)

/-- A track that waits has no report yet, and an ended track keeps the final one. -/
structure Track.Sound (t : Track π) : Prop where
  opened : t.coordinator.Opened
  fresh : t.coordinator.phase = .fresh → ∀ time order due, t.state = .waiting time order due →
    due = .event .started
  waiting : ∀ time order due, t.state = .waiting time order due → t.coordinator.report? = none
  ended : ∀ r, t.state = .ended r → r = t.finalReport

variable {s : Surroundings ω π} {x : Cancellation} {t : Track π} {tl tl' : Timeline ω π}
  {time order : Nat} {due : Due π} {w : ω}

theorem Track.sound_starting (b : Brief) (time order : Nat) :
    (Track.starting (π := π) b time order).Sound where
  opened := .inl ⟨rfl, rfl⟩
  fresh _ _ _ _ h := by cases h; rfl
  waiting _ _ _ _ := rfl
  ended _ h := by cases h

theorem Track.Sound.lost (h : t.Sound) (hstate : t.state = .waiting time order due) :
    t.lost.Sound where
  opened := h.opened
  fresh _ _ _ _ h := by cases h
  waiting _ _ _ h := by cases h
  ended r hr := by
    obtain rfl := State.ended.inj hr
    simp only [finalReport, Track.lost, h.waiting _ _ _ hstate, Option.getD_none]

theorem Track.Sound.advance_ne_fresh (h : t.Sound) (hstate : t.state = .waiting time order due)
    {m : Moment} {e : Event} (he : (s.occur t.coordinator.brief time w due).1 = some e) :
    (t.coordinator.advance m e).phase ≠ .fresh := by
  by_cases hphase : t.coordinator.phase = .fresh
  · obtain rfl := h.fresh hphase _ _ _ hstate
    obtain rfl := Option.some.inj he
    rw [advance_fresh hphase]
    exact start_ne_fresh
  · exact Coordinator.advance_ne_fresh hphase e

theorem Track.Sound.resume (h : t.Sound) (hstate : t.state = .waiting time order due) (w : ω)
    (o : Nat) :
    (s.resume x t time due w o).1.Sound ∧
      (∀ r, (s.resume x t time due w o).1.state = .ended r →
        (s.resume x t time due w o).1.coordinator.report? = none → t.BreaksDown s x w) := by
  have hcases := Surroundings.resume_cases s x t time due w o
  generalize s.resume x t time due w o = r at hcases ⊢
  rcases hcases with ⟨hnone, rfl⟩ | ⟨e, he, hfollowed⟩
  · refine ⟨h.lost hstate, fun _ _ _ => ?_⟩
    cases due with
    | event e => cases hnone
    | settle p => exact .settling time order p hstate hnone
  · have hopened := h.opened.advance (m := ⟨time, x.reached time⟩) e
    have hfresh := h.advance_ne_fresh (m := ⟨time, x.reached time⟩) hstate he
    cases hfollowed with
    | ended report hreport =>
      refine ⟨⟨hopened, fun h => absurd h hfresh, fun _ _ _ h => (by cases h), fun r hr => ?_⟩,
        fun _ _ hnone => ?_⟩
      · obtain rfl := State.ended.inj hr
        simp only [finalReport, hreport, Option.getD_some]
      · rw [hreport] at hnone
        cases hnone
    | pausing _ _ _ hreport =>
      exact ⟨⟨hopened, fun h => absurd h hfresh, fun _ _ _ _ => hreport, fun _ h => by cases h⟩,
        fun _ h => by cases h⟩
    | asking _ _ _ _ hreport =>
      exact ⟨⟨hopened, fun h => absurd h hfresh, fun _ _ _ _ => hreport, fun _ h => by cases h⟩,
        fun _ h => by cases h⟩
    | crashed request asked hnap crash =>
      rw [brief_advance] at crash
      exact ⟨h.lost hstate, fun _ _ _ =>
        .asking time order due e request hstate he asked ⟨hnap, crash⟩⟩
    | idle hreport hasked =>
      obtain ⟨request, hrequest⟩ := exists_request hfresh hreport
      rw [hasked] at hrequest
      cases hrequest

theorem Track.BreaksDown.waiting (h : t.BreaksDown s x w) :
    ∃ time order due, t.state = .waiting time order due := by
  cases h with
  | settling time order p state => exact ⟨time, order, _, state⟩
  | asking time order due _ _ state => exact ⟨time, order, due, state⟩

theorem Track.BreaksDown.resume (h : t.BreaksDown s x w)
    (hstate : t.state = .waiting time order due) (o : Nat) :
    (s.resume x t time due w o).1 = t.lost := by
  cases h with
  | settling time' order' p state crash =>
    rw [hstate] at state
    cases state
    simp only [Surroundings.resume, Surroundings.occur]
    rcases hs : s.settle t.coordinator.brief p time w with ⟨event, w'⟩
    rw [hs] at crash
    obtain rfl : event = none := crash
    rfl
  | asking time' order' due' e request state occurs asked crash =>
    rw [hstate] at state
    cases state
    rcases hs : s.occur t.coordinator.brief time w due with ⟨event, w'⟩
    rw [hs] at occurs crash
    obtain rfl : event = some e := occurs
    obtain ⟨hnap, crash⟩ := crash
    rcases htake : s.take t.coordinator.brief request time w' with ⟨reply, w''⟩
    rw [htake] at crash
    obtain rfl : reply = .crash := crash
    simp only [Surroundings.resume, hs]
    rw [Surroundings.follow_crash asked hnap (by rw [brief_advance]; exact htake)]

/-! ## Whole runs -/

theorem step_eq_none_of_ended (h : ∀ t ∈ tl.tracks, ∃ r, t.state = .ended r) :
    tl.step s x = none := by
  cases hs : tl.step s x with
  | none => rfl
  | some tl' =>
    obtain ⟨i, t, time, order, due, o, ht, hstate, -⟩ := step_eq_some hs
    obtain ⟨r, hr⟩ := h t (List.mem_of_getElem? ht)
    rw [hstate] at hr
    cases hr

/-- Sometime the surroundings break down. -/
def Panics (s : Surroundings ω π) (x : Cancellation) (start : Timeline ω π) : Prop :=
  ∃ tl, Reaches (step s x) start tl ∧ ∃ t ∈ tl.tracks, t.BreaksDown s x tl.world

/-- The tracks are sound, and if one was lost, the surroundings broke down. -/
structure Accountable (s : Surroundings ω π) (x : Cancellation) (start tl : Timeline ω π) : Prop
    where
  reached : Reaches (step s x) start tl
  sound : ∀ t ∈ tl.tracks, t.Sound
  lost : ∀ t ∈ tl.tracks, ∀ r, t.state = .ended r → t.coordinator.report? = none →
    Panics s x start

theorem Accountable.step {start : Timeline ω π} (h : Accountable s x start tl)
    (hs : tl.step s x = some tl') : Accountable s x start tl' := by
  obtain ⟨i, u, time, order, due, o, hu, hstate, -, hchanged⟩ := step_eq_some hs
  have hmem := List.mem_of_getElem? hu
  obtain ⟨hsound, hlost⟩ := (h.sound u hmem).resume (s := s) (x := x) hstate tl.world o
  refine ⟨h.reached.tail hs, fun t ht => ?_, fun t ht r hr hnone => ?_⟩
  · rw [hchanged.tracks] at ht
    rcases List.mem_or_eq_of_mem_set ht with ht | rfl
    · exact h.sound t ht
    · exact hsound
  · rw [hchanged.tracks] at ht
    rcases List.mem_or_eq_of_mem_set ht with ht | rfl
    · exact h.lost t ht r hr hnone
    · exact ⟨tl, h.reached, u, hmem, hlost r hr hnone⟩

theorem Accountable.of_reaches {start : Timeline ω π} (h : Accountable s x start start)
    (hreach : Reaches (Timeline.step s x) start tl) : Accountable s x start tl :=
  invariant_of_reaches hreach (fun _ _ h hs => h.step hs) h

theorem Accountable.of_run {start : Timeline ω π} (h : Accountable s x start start) {fuel : Nat}
    (hrun : start.run s x fuel = some tl) :
    Accountable s x start tl ∧ (∀ t ∈ tl.tracks, ∃ r, t.state = .ended r) ∧
      tl.reports = tl.tracks.map Track.finalReport := by
  obtain ⟨hreach, hend⟩ := mem_eval.mp (mem_eval_iff_exists_run.mpr ⟨fuel, hrun⟩)
  have haccountable := h.of_reaches hreach
  have hended := fun t (ht : t ∈ tl.tracks) => ended_of_step_eq_none hend ht
  refine ⟨haccountable, hended, List.filterMap_eq_map_iff_forall_eq_some.mpr fun t ht => ?_⟩
  obtain ⟨r, hr⟩ := hended t ht
  rw [Track.report?, hr, (haccountable.sound t ht).ended r hr]

/-! ## One track -/

/-- One coordinator on a timeline of its own. -/
def alone (b : Brief) (world : ω) : Timeline ω π := ⟨0, world, [.starting b 0 0], 1⟩

variable {b : Brief}

theorem accountable_alone : Accountable s x (alone b w) (alone b w) where
  reached := .refl
  sound t ht := by
    obtain rfl := List.mem_singleton.mp ht
    exact Track.sound_starting b 0 0
  lost t ht r hr _ := by
    obtain rfl := List.mem_singleton.mp ht
    cases hr

theorem step_of_single (ht : tl.tracks = [t]) (hs : tl.step s x = some tl') :
    ∃ time order due o, t.state = .waiting time order due ∧
      tl'.tracks = [(s.resume x t time due tl.world o).1] := by
  obtain ⟨i, u, time, order, due, o, hu, hstate, -, hchanged⟩ := step_eq_some hs
  rw [ht, List.getElem?_singleton] at hu
  split at hu
  · subst i
    obtain rfl := Option.some.inj hu
    exact ⟨time, order, due, o, hstate, by rw [hchanged.tracks, ht, List.set_cons_zero]⟩
  · cases hu

theorem exists_track_of_reaches (h : Reaches (step s x) (alone b w) tl) :
    ∃ t, tl.tracks = [t] ∧ t.coordinator.brief = b := by
  refine invariant_of_reaches (P := fun tl => ∃ t, tl.tracks = [t] ∧ t.coordinator.brief = b) h ?_
    ⟨_, rfl, rfl⟩
  rintro tl tl' ⟨t, ht, hbrief⟩ hs
  obtain ⟨time, order, due, o, -, htracks⟩ := step_of_single ht hs
  exact ⟨_, htracks, (Surroundings.brief_resume o).trans hbrief⟩

theorem Panics.exists_run (h : Panics s x (alone b w)) :
    ∃ fuel tl t, (alone b w).run s x fuel = some tl ∧ tl.tracks = [t] ∧
      t.coordinator.report? = none := by
  obtain ⟨tl, hreach, t, ht, hbreaks⟩ := h
  obtain ⟨u, hu, -⟩ := exists_track_of_reaches hreach
  obtain rfl : t = u := by rwa [hu, List.mem_singleton] at ht
  have hsound := (accountable_alone.of_reaches hreach).sound t ht
  obtain ⟨time, order, due, hstate⟩ := hbreaks.waiting
  cases hs : tl.step s x with
  | none =>
    obtain ⟨r, hr⟩ := ended_of_step_eq_none hs ht
    rw [hstate] at hr
    cases hr
  | some tl' =>
    obtain ⟨time', order', due', o, hstate', htracks⟩ := step_of_single hu hs
    rw [hbreaks.resume hstate'] at htracks
    have hend : tl'.step s x = none := by
      refine step_eq_none_of_ended fun v hv => ?_
      rw [htracks, List.mem_singleton] at hv
      exact ⟨_, congrArg Track.state hv⟩
    obtain ⟨fuel, hrun⟩ := mem_eval_iff_exists_run.mp (mem_eval.mpr ⟨hreach.tail hs, hend⟩)
    exact ⟨fuel, tl', t.lost, hrun, htracks, hsound.waiting _ _ _ hstate⟩

/-- The only track ends without a report of its coordinator if and only if the surroundings break
down. -/
theorem exists_track_of_run {fuel : Nat} (hrun : (alone b w).run s x fuel = some tl) :
    ∃ t, tl.tracks = [t] ∧ t.coordinator.brief = b ∧ t.Sound ∧
      (t.coordinator.report? = none ↔ Panics s x (alone b w)) := by
  obtain ⟨haccountable, hended, -⟩ := accountable_alone.of_run hrun
  obtain ⟨t, ht, hbrief⟩ := exists_track_of_reaches haccountable.reached
  have hmem : t ∈ tl.tracks := by rw [ht]; exact List.mem_cons_self
  obtain ⟨r, hr⟩ := hended t hmem
  refine ⟨t, ht, hbrief, haccountable.sound t hmem, haccountable.lost t hmem r hr, fun hpanics => ?_⟩
  obtain ⟨fuel', tl', u, hrun', hu, hnone⟩ := hpanics.exists_run
  obtain rfl := Part.mem_unique (mem_eval_iff_exists_run.mpr ⟨fuel, hrun⟩)
    (mem_eval_iff_exists_run.mpr ⟨fuel', hrun'⟩)
  rw [ht, List.singleton_inj] at hu
  rw [hu, hnone]

end Timeline

end Labyrinth

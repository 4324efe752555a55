import Labyrinth.Proofs.Coordinator.Advance
import Labyrinth.Proofs.Timeline.Step
import Mathlib.Computability.StateTransition

/-!
# Timelines in lockstep

Surroundings that give the same replies lead the coordinators through the same steps, whatever else
they keep.
-/

namespace Labyrinth

open Coordinator Timeline StateTransition

variable {ω ω' π : Type}

namespace Timeline

/-! ## Reaching -/

section Reaching

variable {s : Surroundings ω π} {x : Cancellation} {tl tl' tl'' : Timeline ω π}

/-- A run with enough fuel comes to where the steps end. -/
theorem mem_eval_iff_exists_run :
    tl' ∈ eval (step s x) tl ↔ ∃ fuel, tl.run s x fuel = some tl' := by
  rw [mem_eval]
  constructor
  · rintro ⟨hreach, hend⟩
    induction hreach using Relation.ReflTransGen.head_induction_on with
    | refl => exact ⟨1, by rw [run, hend]⟩
    | head hs _ ih =>
      obtain ⟨fuel, hrun⟩ := ih
      exact ⟨fuel + 1, by rw [run, Option.mem_def.mp hs]; exact hrun⟩
  · rintro ⟨fuel, hrun⟩
    induction fuel generalizing tl with
    | zero => cases hrun
    | succ fuel ih =>
      cases hs : tl.step s x with
      | none =>
        rw [run, hs] at hrun
        obtain rfl := Option.some.inj hrun
        exact ⟨.refl, hs⟩
      | some next =>
        rw [run, hs] at hrun
        obtain ⟨hreach, hend⟩ := ih hrun
        exact ⟨.head hs hreach, hend⟩

theorem reaches_end (h : Reaches (step s x) tl tl') (h' : Reaches (step s x) tl tl'')
    (hend : tl''.step s x = none) : Reaches (step s x) tl' tl'' := by
  rcases reaches_total h h' with hreach | hreach
  · exact hreach
  · rcases Relation.ReflTransGen.cases_head hreach with rfl | ⟨next, hs, -⟩
    · exact .refl
    · rw [Option.mem_def, hend] at hs
      cases hs

theorem reaches_of_iterate {n : Nat}
    (h : (fun o : Option (Timeline ω π) => o.bind (step s x))^[n] (some tl) = some tl') :
    Reaches (step s x) tl tl' := by
  induction n generalizing tl' with
  | zero =>
    obtain rfl := Option.some.inj h
    exact .refl
  | succ n ih =>
    rw [Function.iterate_succ_apply'] at h
    obtain ⟨next, hnext, hs⟩ := Option.bind_eq_some_iff.mp h
    exact (ih hnext).tail hs

theorem invariant_of_reaches {P : Timeline ω π → Prop} (h : Reaches (step s x) tl tl')
    (hstep : ∀ a b, P a → a.step s x = some b → P b) (hP : P tl) : P tl' := by
  induction h with
  | refl => exact hP
  | tail _ hs ih => exact hstep _ _ ih hs

end Reaching

theorem respects_of_rel {σ τ : Type} {f : σ → Option σ} {g : τ → Option τ} {rel : σ → τ → Prop}
    (h : ∀ a b, rel a b → Option.Rel rel (f a) (g b)) :
    Respects f g rel ∧ Respects g f (flip rel) := by
  constructor
  · intro a b hab
    have hstep := h a b hab
    revert hstep
    cases f a <;> cases hg : g b <;> intro hstep <;> cases hstep
    · rfl
    · exact ⟨_, ‹_›, .single hg⟩
  · intro b a hab
    have hstep := h a b hab
    revert hstep
    cases hf : f a <;> cases g b <;> intro hstep <;> cases hstep
    · rfl
    · exact ⟨_, ‹_›, .single hf⟩

end Timeline

/-! ## Mimicry -/

/-- Surroundings in related worlds reply alike to the briefs that they know. Pending requests fit
the brief for which they are kept. -/
structure Mimics (s : Surroundings ω π) (s' : Surroundings ω' π) (rel : ω → ω' → Prop)
    (Known : Brief → Prop) (Fits : Brief → π → Prop) : Prop where
  take : ∀ now {b request w w'}, rel w w' → Known b → (∀ span, request ≠ .nap span) →
    (s.take b request now w).1 = (s'.take b request now w').1 ∧
      rel (s.take b request now w).2 (s'.take b request now w').2
  fits : ∀ {b request now w' span p}, Known b →
    (s'.take b request now w').1 = .later span p → Fits b p
  settle : ∀ now {b p w w'}, rel w w' → Known b → Fits b p →
    (s.settle b p now w).1 = (s'.settle b p now w').1 ∧
      rel (s.settle b p now w).2 (s'.settle b p now w').2

namespace Timeline

/-- The brief of a track is known, and what the track waits for fits it. -/
def Track.Fits (Known : Brief → Prop) (Fits : Brief → π → Prop) (t : Track π) : Prop :=
  Known t.coordinator.brief ∧
    ∀ time order p, t.state = .waiting time order (.settle p) → Fits t.coordinator.brief p

def withWorld (tl : Timeline ω π) (world : ω') : Timeline ω' π :=
  ⟨tl.now, world, tl.tracks, tl.waits⟩

/-- Only the worlds of the two timelines differ, and these are related. -/
structure Alike (rel : ω → ω' → Prop) (Known : Brief → Prop) (Fits : Brief → π → Prop)
    (tl : Timeline ω π) (tl' : Timeline ω' π) : Prop where
  same : tl' = tl.withWorld tl'.world
  world : rel tl.world tl'.world
  fits : ∀ t ∈ tl.tracks, t.Fits Known Fits

section Alike

variable {s : Surroundings ω π} {s' : Surroundings ω' π} {rel : ω → ω' → Prop}
  {Known : Brief → Prop} {Fits : Brief → π → Prop} {x : Cancellation} {tl : Timeline ω π}
  {tl' : Timeline ω' π} {w' : ω'} {c : Coordinator} {t : Track π}

theorem Alike.of_withWorld (hworld : rel tl.world w') (hfits : ∀ t ∈ tl.tracks, t.Fits Known Fits) :
    Alike rel Known Fits tl (tl.withWorld w') :=
  ⟨rfl, hworld, hfits⟩

theorem fits_set (h : ∀ t ∈ tl.tracks, t.Fits Known Fits) (ht : t.Fits Known Fits) (i : Nat) :
    ∀ u ∈ tl.tracks.set i t, u.Fits Known Fits := by
  intro u hu
  rcases List.mem_or_eq_of_mem_set hu with hu | rfl
  · exact h u hu
  · exact ht

theorem fits_lose (h : ∀ t ∈ tl.tracks, t.Fits Known Fits) (i : Nat) :
    ∀ u ∈ tl.tracks.modify i Track.lost, u.Fits Known Fits := by
  intro u hu
  obtain ⟨j, hj⟩ := List.getElem?_of_mem hu
  rw [List.getElem?_modify] at hj
  obtain ⟨t, ht, rfl⟩ := Option.map_eq_some_iff.mp hj
  have hfits := h t (List.mem_of_getElem? ht)
  split
  · exact ⟨hfits.1, fun _ _ _ hstate => by cases hstate⟩
  · exact hfits

theorem withWorld_wait (i order time : Nat) (due : Due π) :
    (tl.withWorld w').wait i c order time due = (tl.wait i c order time due).withWorld w' := by
  unfold wait withWorld
  dsimp only
  split <;> rfl

theorem fits_wait (h : ∀ t ∈ tl.tracks, t.Fits Known Fits) (hc : Known c.brief) (i order time : Nat)
    {due : Due π} (hdue : ∀ p, due = .settle p → Fits c.brief p) :
    ∀ u ∈ (tl.wait i c order time due).tracks, u.Fits Known Fits := by
  have hfits : ∀ o, Track.Fits Known Fits ⟨c, .waiting time o due⟩ := fun o =>
    ⟨hc, fun _ _ p hstate => hdue p (by cases hstate; rfl)⟩
  unfold wait
  split
  · exact fits_set h (hfits order) i
  · exact fits_set h (hfits tl.waits) i

theorem world_wait (i order time : Nat) (due : Due π) :
    (tl.wait i c order time due).world = tl.world := by
  unfold wait
  split <;> rfl

theorem Alike.wait (h : Alike rel Known Fits tl tl') (hc : Known c.brief) (i order time : Nat)
    {due : Due π} (hdue : ∀ p, due = .settle p → Fits c.brief p) :
    Alike rel Known Fits (tl.wait i c order time due) (tl'.wait i c order time due) := by
  rw [h.same, withWorld_wait]
  refine .of_withWorld ?_ (fits_wait h.fits hc i order time hdue)
  rw [world_wait]
  exact h.world

theorem ask_of_request {request : Request} (hrequest : c.request = some request)
    (hnap : ∀ span, request ≠ .nap span) (i order : Nat) :
    tl.ask s x i c order =
      match s.take c.brief request tl.now tl.world with
      | (.event e, world) => { tl with world }.wait i c order tl.now (.event e)
      | (.after span e, world) => { tl with world }.wait i c order (tl.now + span) (.event e)
      | (.later span p, world) => { tl with world }.wait i c order (tl.now + span) (.settle p)
      | (.crash, world) => { tl with world, tracks := tl.tracks.modify i Track.lost } := by
  have hreport := Surroundings.report?_eq_none hrequest
  cases htake : s.take c.brief request tl.now tl.world with
  | mk reply world =>
    cases request
    case nap span => exact absurd rfl (hnap span)
    all_goals
      simp only [ask, hreport, hrequest, htake]
      cases reply <;> rfl

theorem Alike.ask (m : Mimics s s' rel Known Fits) (h : Alike rel Known Fits tl tl')
    (hc : Known c.brief) (i order : Nat) :
    Alike rel Known Fits (tl.ask s x i c order) (tl'.ask s' x i c order) := by
  obtain ⟨hsame, hworld, hfits⟩ := h
  generalize tl'.world = w' at hsame hworld
  subst hsame
  cases hreport : c.report? with
  | some r =>
    simp only [Timeline.ask, hreport]
    exact .of_withWorld hworld (fits_set hfits ⟨hc, fun _ _ _ hstate => by cases hstate⟩ i)
  | none =>
    cases hrequest : c.request with
    | none =>
      simp only [Timeline.ask, hreport, hrequest]
      exact .of_withWorld hworld (fits_lose hfits i)
    | some request =>
      by_cases hnap : ∃ span, request = .nap span
      · obtain ⟨span, rfl⟩ := hnap
        simp only [Timeline.ask, hreport, hrequest]
        exact Alike.wait (.of_withWorld hworld hfits) hc i order _ fun p hdue => by cases hdue
      · have hnap : ∀ span, request ≠ .nap span := fun span heq => hnap ⟨span, heq⟩
        obtain ⟨hreply, hrel⟩ := m.take tl.now hworld hc hnap
        rw [ask_of_request hrequest hnap, ask_of_request hrequest hnap]
        rcases htake : s.take c.brief request tl.now tl.world with ⟨reply, w₁⟩
        rcases htake' : s'.take c.brief request tl.now w' with ⟨reply', w₁'⟩
        rw [htake, htake'] at hreply hrel
        dsimp only at hreply hrel
        subst hreply
        have halike : Alike rel Known Fits { tl with world := w₁ }
            ({ tl with world := w₁ }.withWorld w₁') := .of_withWorld hrel hfits
        simp only [withWorld, htake']
        cases reply with
        | event e => exact halike.wait hc i order _ fun p hdue => by cases hdue
        | after span e => exact halike.wait hc i order _ fun p hdue => by cases hdue
        | later span p =>
          refine halike.wait hc i order _ ?_
          rintro _ ⟨⟩
          exact m.fits hc (congrArg Prod.fst htake')
        | crash => exact .of_withWorld hrel (fits_lose hfits i)

theorem Alike.step (m : Mimics s s' rel Known Fits) (h : Alike rel Known Fits tl tl') :
    Option.Rel (Alike rel Known Fits) (tl.step s x) (tl'.step s' x) := by
  obtain ⟨hsame, hworld, hfits⟩ := h
  generalize tl'.world = w' at hsame hworld
  subst hsame
  unfold Timeline.step
  simp only [withWorld]
  cases hturn : firstTurn tl.tracks with
  | none => exact .none
  | some turn =>
    simp only [Option.bind_eq_bind, Option.bind_some]
    cases ht : tl.tracks[turn.index]? with
    | none => exact .none
    | some t =>
      have hknown := hfits t (List.mem_of_getElem? ht)
      simp only [Option.bind_some]
      cases hstate : t.state with
      | ended r => exact .none
      | waiting time order due =>
        cases due with
        | event e =>
          refine .some (Alike.ask m ?_ ((brief_advance e).symm ▸ hknown.1) _ _)
          exact ⟨rfl, hworld, hfits⟩
        | settle p =>
          obtain ⟨hevent, hrel⟩ := m.settle time hworld hknown.1
            (hknown.2 time order p hstate)
          dsimp only
          rw [← hevent]
          cases (s.settle t.coordinator.brief p time tl.world).1 with
          | none => exact .some (.of_withWorld hrel (fits_lose hfits _))
          | some e =>
            refine .some (Alike.ask m ?_ ((brief_advance e).symm ▸ hknown.1) _ _)
            exact ⟨rfl, hrel, hfits⟩

theorem Alike.respects (m : Mimics s s' rel Known Fits) :
    Respects (Timeline.step s x) (Timeline.step s' x) (Alike rel Known Fits) :=
  (respects_of_rel fun _ _ h => h.step m).1

theorem Alike.respects_flip (m : Mimics s s' rel Known Fits) :
    Respects (Timeline.step s' x) (Timeline.step s x) (flip (Alike rel Known Fits)) :=
  (respects_of_rel fun _ _ h => h.step m).2

end Alike

end Timeline

end Labyrinth

import Labyrinth.Position.Board
import Labyrinth.Proofs.Timeline.Outcome
import Mathlib.Data.List.Forall2
import Mathlib.Order.Lattice.Nat

/-!
# Fleets

Hosts that share nothing: each role has one of its own, with a state of its own. Only the board is
common, and no coordinator ever reads it. A track and the state of its host make a lane, and what
becomes of a lane is settled by the lane alone. The timeline only says in which order the lanes go
on.
-/

namespace Labyrinth

open Coordinator Timeline StateTransition

variable {σ π ω ω' : Type}

/-- The states of the hosts, and the board on which all roles publish. -/
structure Fleet (σ : Type) where
  states : Role → σ
  board : Option Board

namespace Fleet

/-- The host of a role takes its requests. What is published goes to the board. -/
def take (host : Role → Surroundings σ π) (b : Brief) (request : Request) (now : Nat)
    (w : Fleet σ) : Reply π × Fleet σ :=
  match request with
  | .publish s => (.event .published, { w with board := w.board.map (·.publish s) })
  | request =>
    let (reply, state) := (host b.role).take b request now (w.states b.role)
    (reply, { w with states := Function.update w.states b.role state })

def settle (host : Role → Surroundings σ π) (b : Brief) (p : π) (now : Nat) (w : Fleet σ) :
    Option Event × Fleet σ :=
  let (event, state) := (host b.role).settle b p now (w.states b.role)
  (event, { w with states := Function.update w.states b.role state })

def surroundings (host : Role → Surroundings σ π) : Surroundings (Fleet σ) π :=
  ⟨take host, settle host⟩

end Fleet

namespace Surroundings

/-- A host with nobody beside it. What is published is read by nobody. -/
def unread (h : Surroundings σ π) : Surroundings σ π where
  take b request now state :=
    match request with
    | .publish _ => (.event .published, state)
    | request => h.take b request now state
  settle := h.settle

/-! ## Parts of the surroundings -/

/-- For a brief, the surroundings act on the part `v` of their state as `s'` does. -/
structure Shows (s : Surroundings ω π) (s' : Surroundings ω' π) (b : Brief) (v : ω → ω') : Prop
    where
  take : ∀ request now w, s'.take b request now (v w) =
    ((s.take b request now w).1, v (s.take b request now w).2)
  settle : ∀ p now w, s'.settle b p now (v w) =
    ((s.settle b p now w).1, v (s.settle b p now w).2)

end Surroundings

namespace Timeline

/-- The track without its order among the others. -/
def Track.unordered (t : Track π) : Track π :=
  match t.state with
  | .waiting time _ due => ⟨t.coordinator, .waiting time 0 due⟩
  | .ended _ => t

@[simp] theorem Track.coordinator_unordered (t : Track π) :
    t.unordered.coordinator = t.coordinator := by
  unfold Track.unordered
  split <;> rfl

@[simp] theorem Track.lost_unordered (t : Track π) : t.unordered.lost = t.lost := by
  simp only [Track.lost, coordinator_unordered]

end Timeline

namespace Surroundings

variable {s : Surroundings ω π} {s' : Surroundings ω' π} {b : Brief} {v : ω → ω'}
  {x : Cancellation} {t : Track π} {c : Coordinator} {time now : Nat} {due : Due π} {w : ω}

theorem Shows.follow (h : Shows s s' c.brief v) (o : Nat) :
    s'.follow x t.unordered c now (v w) 0 =
      ((s.follow x t c now w o).1.unordered, v (s.follow x t c now w o).2) := by
  cases hreport : c.report? with
  | some r =>
    simp only [Surroundings.follow, hreport]
    rfl
  | none =>
    cases hrequest : c.request with
    | none =>
      simp only [Surroundings.follow, hreport, hrequest, Track.lost_unordered]
      rfl
    | some request =>
      have htake := h.take request now w
      rcases hs : s.take c.brief request now w with ⟨reply, w'⟩
      rw [hs] at htake
      cases request
      case nap span =>
        simp only [Surroundings.follow, hreport, hrequest]
        rfl
      all_goals
        simp only [Surroundings.follow, hreport, hrequest, htake, hs, Track.lost_unordered]
        cases reply <;> rfl

theorem Shows.resume (h : Shows s s' t.coordinator.brief v) (o : Nat) :
    s'.resume x t.unordered time due (v w) 0 =
      ((s.resume x t time due w o).1.unordered, v (s.resume x t time due w o).2) := by
  have hoccur : s'.occur t.coordinator.brief time (v w) due =
      ((s.occur t.coordinator.brief time w due).1, v (s.occur t.coordinator.brief time w due).2) := by
    cases due with
    | event e => rfl
    | settle p => exact h.settle p time w
  rcases hs : s.occur t.coordinator.brief time w due with ⟨event, w'⟩
  rw [hs] at hoccur
  simp only [Surroundings.resume, Track.coordinator_unordered, hoccur, hs, Track.lost_unordered]
  cases event with
  | none => rfl
  | some e => exact Shows.follow (by rwa [brief_advance]) o

end Surroundings

/-! ## Lanes -/

namespace Fleet

theorem set_of_getElem? {α : Type} {l : List α} {i : Nat} {a : α} (h : l[i]? = some a) :
    l.set i a = l := by
  obtain ⟨hi, rfl⟩ := List.getElem?_eq_some_iff.mp h
  exact List.set_getElem_self hi

variable {host : Role → Surroundings σ π} {x : Cancellation} {b : Brief} {w : Fleet σ}

theorem shows_host (host : Role → Surroundings σ π) :
    Surroundings.Shows (surroundings host) (host b.role).unread b fun w => w.states b.role where
  take request now w := by
    cases request
    case publish s => rfl
    all_goals
      simp only [Surroundings.unread, surroundings, take, Function.update_self]
  settle p now w := by
    simp only [Surroundings.unread, surroundings, settle, Function.update_self]

theorem states_take {q : Role} (hq : q ≠ b.role) (request : Request) (now : Nat) :
    (take host b request now w).2.states q = w.states q := by
  cases request
  case publish s => rfl
  all_goals exact Function.update_of_ne hq _ _

theorem states_settle {q : Role} (hq : q ≠ b.role) (p : π) (now : Nat) :
    (settle host b p now w).2.states q = w.states q := Function.update_of_ne hq _ _

/-- Lets a track go on with nothing but its own host. -/
def goOn (host : Role → Surroundings σ π) (x : Cancellation) (a : Track π × σ) :
    Option (Track π × σ) :=
  match a.1.state with
  | .ended _ => none
  | .waiting time _ due =>
    some ((host a.1.coordinator.brief.role).unread.resume x a.1 time due a.2 0)

def lane (w : Fleet σ) (t : Track π) : Track π × σ :=
  (t.unordered, w.states t.coordinator.brief.role)

def lanes (tl : Timeline (Fleet σ) π) : List (Track π × σ) := tl.tracks.map (lane tl.world)

def roles (tl : Timeline (Fleet σ) π) : List Role := tl.tracks.map fun t => t.coordinator.brief.role

theorem goOn_lane (host : Role → Surroundings σ π) (x : Cancellation) (w : Fleet σ) {t : Track π}
    {time order : Nat} {due : Due π} (h : t.state = .waiting time order due) (o : Nat) :
    goOn host x (lane w t) =
      some (lane ((surroundings host).resume x t time due w o).2
        ((surroundings host).resume x t time due w o).1) := by
  have hstate : t.unordered.state = .waiting time 0 due := by
    simp only [Track.unordered, h]
  simp only [goOn, lane, hstate, Track.coordinator_unordered, Surroundings.brief_resume,
    (shows_host host).resume o]

variable {tl tl' : Timeline (Fleet σ) π}

theorem step_lanes (hnodup : (roles tl).Nodup) (h : tl.step (surroundings host) x = some tl') :
    roles tl' = roles tl ∧ ∃ i a a', (lanes tl)[i]? = some a ∧ goOn host x a = some a' ∧
      lanes tl' = (lanes tl).set i a' := by
  obtain ⟨i, t, time, order, due, o, ht, hstate, -, hchanged⟩ := step_eq_some h
  have hbrief : ((surroundings host).resume x t time due tl.world o).1.coordinator.brief =
      t.coordinator.brief := Surroundings.brief_resume o
  have hgoOn := goOn_lane host x tl.world hstate o
  have hothers : ∀ q, q ≠ t.coordinator.brief.role →
      ((surroundings host).resume x t time due tl.world o).2.states q = tl.world.states q :=
    fun q hq => Surroundings.keeps_resume (P := fun w : Fleet σ => w.states q = tl.world.states q)
      (fun request now _ hw => (states_take hq request now).trans hw)
      (fun p now _ hw => (states_settle hq p now).trans hw) rfl o
  generalize (surroundings host).resume x t time due tl.world o = r at hchanged hbrief hgoOn hothers
  have hi : i < tl.tracks.length := (List.getElem?_eq_some_iff.mp ht).1
  refine ⟨?_, i, lane tl.world t, lane r.2 r.1, ?_, hgoOn, ?_⟩
  · rw [roles, hchanged.tracks, List.map_set, hbrief]
    exact set_of_getElem? (by rw [List.getElem?_map, ht, Option.map_some])
  · rw [lanes, List.getElem?_map, ht, Option.map_some]
  · rw [lanes, lanes, hchanged.tracks, hchanged.world, List.map_set]
    refine List.ext_getElem? fun j => ?_
    rw [List.getElem?_set, List.getElem?_set, List.length_map, List.length_map]
    split
    · rfl
    · rename_i hij
      rw [List.getElem?_map, List.getElem?_map]
      cases hu : tl.tracks[j]? with
      | none => rfl
      | some u =>
        have hrole : u.coordinator.brief.role ≠ t.coordinator.brief.role := by
          intro heq
          refine hij ((List.getElem?_inj ?_ hnodup).mp ?_)
          · rwa [roles, List.length_map]
          · rw [roles, List.getElem?_map, List.getElem?_map, ht, hu, Option.map_some,
              Option.map_some, heq]
        simp only [Option.map_some, lane, hothers _ hrole]

/-! ## Fates -/

/-- Where the lanes come to, if they do. -/
noncomputable def fates (host : Role → Surroundings σ π) (x : Cancellation)
    (tl : Timeline (Fleet σ) π) : List (Part (Track π × σ)) :=
  (lanes tl).map (eval (goOn host x))

theorem fates_step (hnodup : (roles tl).Nodup) (h : tl.step (surroundings host) x = some tl') :
    fates host x tl' = fates host x tl := by
  obtain ⟨-, i, a, a', ha, hgoOn, hlanes⟩ := step_lanes hnodup h
  rw [fates, hlanes, List.map_set, ← reaches_eval (.single hgoOn)]
  exact set_of_getElem? (by rw [List.getElem?_map, ha, Option.map_some])

/-- Nothing that happens on the timeline changes what becomes of the lanes. -/
theorem fates_reaches (hnodup : (roles tl).Nodup)
    (h : Reaches (step (surroundings host) x) tl tl') :
    (roles tl').Nodup ∧ fates host x tl' = fates host x tl := by
  refine invariant_of_reaches
    (P := fun tl' => (roles tl').Nodup ∧ fates host x tl' = fates host x tl) h ?_ ⟨hnodup, rfl⟩
  rintro a b ⟨hnodup, hfates⟩ hs
  refine ⟨?_, (fates_step hnodup hs).trans hfates⟩
  rwa [(step_lanes hnodup hs).1]

/-- How many steps there are until the end, if it comes. -/
noncomputable def left {α : Type} (f : α → Option α) (a : α) : Nat :=
  sInf {n | (fun o : Option α => o.bind f)^[n] (some a) = none}

theorem left_lt {α : Type} {f : α → Option α} {a b : α} (h : (eval f a).Dom) (hb : f a = some b) :
    left f b < left f a := by
  have hends : ∃ n, (fun o : Option α => o.bind f)^[n] (some a) = none := by
    obtain ⟨e, he⟩ := Part.dom_iff_mem.mp h
    obtain ⟨hreach, hend⟩ := mem_eval.mp he
    clear hb
    induction hreach using Relation.ReflTransGen.head_induction_on with
    | refl => exact ⟨1, hend⟩
    | @head a c hc _ ih =>
      obtain ⟨n, hn⟩ := ih (by rwa [← reaches_eval (.single hc)]) (by rwa [← reaches_eval (.single hc)])
      exact ⟨n + 1, by rw [Function.iterate_succ_apply, Option.bind_some, Option.mem_def.mp hc, hn]⟩
  have hleft : (fun o : Option α => o.bind f)^[left f a] (some a) = none := Nat.sInf_mem hends
  cases hn : left f a with
  | zero =>
    rw [hn] at hleft
    cases hleft
  | succ n =>
    rw [hn, Function.iterate_succ_apply, Option.bind_some, hb] at hleft
    exact Nat.lt_succ_of_le (Nat.sInf_le hleft)

variable {β : Type}

theorem ended_of_fates (f : Track π × σ → β) (h : ∀ t ∈ tl.tracks, ∃ r, t.state = .ended r) :
    List.Forall₂ (fun p b => ∃ e ∈ p, f e = b) (fates host x tl) ((lanes tl).map f) := by
  rw [fates, List.forall₂_map_left_iff, List.forall₂_map_right_iff, List.forall₂_same]
  intro a ha
  obtain ⟨t, ht, rfl⟩ := List.mem_map.mp ha
  obtain ⟨r, hr⟩ := h t ht
  refine ⟨lane tl.world t, mem_eval.mpr ⟨.refl, ?_⟩, rfl⟩
  simp only [goOn, lane, Track.unordered, hr]

theorem exists_run_iff (host : Role → Surroundings σ π) (x : Cancellation) (f : Track π × σ → β)
    (hnodup : (roles tl).Nodup) (bs : List β) :
    (∃ fuel tl', tl.run (surroundings host) x fuel = some tl' ∧ (lanes tl').map f = bs) ↔
      List.Forall₂ (fun p b => ∃ e ∈ p, f e = b) (fates host x tl) bs := by
  have hends : ∀ {fuel tl'}, tl.run (surroundings host) x fuel = some tl' →
      List.Forall₂ (fun p b => ∃ e ∈ p, f e = b) (fates host x tl) ((lanes tl').map f) := by
    intro fuel tl' hrun
    obtain ⟨hreach, hend⟩ := mem_eval.mp (mem_eval_iff_exists_run.mpr ⟨fuel, hrun⟩)
    rw [← (fates_reaches hnodup hreach).2]
    exact ended_of_fates f fun t ht => ended_of_step_eq_none hend ht
  constructor
  · rintro ⟨fuel, tl', hrun, rfl⟩
    exact hends hrun
  · intro hfates
    have hdom : ∀ p ∈ fates host x tl, p.Dom := by
      refine ((List.forall₂_and_left _ _).mp (hfates.imp fun p r hr => ⟨?_, hr⟩)).1
      obtain ⟨e, he, -⟩ := hr
      exact Part.dom_iff_mem.mpr ⟨e, he⟩
    have hunique : Relator.RightUnique fun (p : Part (Track π × σ)) b => ∃ e ∈ p, f e = b := by
      rintro p b b' ⟨e, he, rfl⟩ ⟨e', he', rfl⟩
      rw [Part.mem_unique he he']
    have hstep : ∀ a b : Timeline (Fleet σ) π,
        ((roles a).Nodup ∧ fates host x a = fates host x tl) →
          a.step (surroundings host) x = some b →
            ((roles b).Nodup ∧ fates host x b = fates host x tl) ∧
              ((lanes b).map (left (goOn host x))).sum < ((lanes a).map (left (goOn host x))).sum := by
      rintro a b ⟨hnodup, hsame⟩ hs
      obtain ⟨hroles, i, l, l', hl, hgoOn, hlanes⟩ := step_lanes hnodup hs
      refine ⟨⟨by rwa [hroles], (fates_step hnodup hs).trans hsame⟩, ?_⟩
      rw [hlanes]
      refine sum_map_set_lt hl (left_lt (hdom _ ?_) hgoOn)
      rw [← hsame]
      exact List.mem_map_of_mem (List.mem_of_getElem? hl)
    obtain ⟨fuel, tl', hrun, -⟩ := exists_run
      (P := fun a => (roles a).Nodup ∧ fates host x a = fates host x tl) hstep ⟨hnodup, rfl⟩
    exact ⟨fuel, tl', hrun, List.right_unique_forall₂' hunique (hends hrun) hfates⟩

end Fleet

end Labyrinth

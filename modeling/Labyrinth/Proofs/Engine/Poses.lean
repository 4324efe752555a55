import Labyrinth.Proofs.Engine.Course
import Labyrinth.Proofs.Engine.Running

/-!
# Poses

The pose of an agent depends on its own role only: it comes of the commands that the role sends
while the session is running. What other roles do makes no difference to it, and neither does what
happens in other sessions.
-/

namespace Labyrinth.Engine

/-! ## Hosts that join under their own role -/

/-- A host joins under the role that it is bound to. -/
def Call.InRole (roles : List Role) : Call → Prop
  | .join host _ _ r _ => roles[host]? = some r
  | _ => True

instance (roles : List Role) (c : Call) : Decidable (c.InRole roles) :=
  match c with
  | .join _ _ _ _ _ => inferInstanceAs (Decidable (_ = _))
  | .enter _ | .wait _ | .complete _ | .status _ | .send _ _ | .observe _ =>
    inferInstanceAs (Decidable True)

/-- All hosts join under their own roles. The roles are those of the hosts that are there
already. -/
def OwnRoles : List Role → List Call → Prop
  | _, [] => True
  | roles, c :: calls => c.InRole roles ∧ OwnRoles (roles ++ c.entrant.toList) calls

instance OwnRoles.decide : (roles : List Role) → (calls : List Call) →
    Decidable (OwnRoles roles calls)
  | _, [] => inferInstanceAs (Decidable True)
  | roles, c :: calls =>
    have := OwnRoles.decide (roles ++ c.entrant.toList) calls
    inferInstanceAs (Decidable (c.InRole roles ∧ OwnRoles (roles ++ c.entrant.toList) calls))

namespace Usage

/-- What a call sends for a role that is in a session. -/
def token? (u : Usage) (r : Role) (id : SessionId) : Call → Option String
  | .send host token => if u.hosts[host]? = some ⟨r, some id⟩ then some token else none
  | _ => none

def command? (u : Usage) (r : Role) (id : SessionId) (c : Call) : Option Command :=
  (u.token? r id c).bind Command.ofToken?

/-- The command that counts, since the session is running. -/
def hears (u : Usage) (r : Role) (id : SessionId) (c : Call) : Option Command :=
  if u.runs id then u.command? r id c else none

/-- The commands that a role sends while the session is running. -/
def heard (u : Usage) (r : Role) (id : SessionId) : List Call → List Command
  | [] => []
  | c :: calls => (u.hears r id c).toList ++ (u.serve c).2.heard r id calls

variable {u u' : Usage} {c : Call} {calls : List Call} {deed : Option Deed} {id : SessionId}
  {session?' : Option Session} {s : Session} {r r' : Role} {p : Pose}

/-! ## What a command does to the poses -/

section Told

variable {e : Engine} {token : String} {now : Nat}

theorem map_movedAll_nil (e : Engine) (x : Option Pose) : x.map (e.movedAll · []) = x :=
  Option.map_id'

theorem agent?_obey_self :
    (e.obey s r id token).2.agent? r =
      (s.agent? r).map (e.movedAll · (Command.ofToken? token).toList) := by
  by_cases hquit : token = Command.quitToken
  · rw [hquit, obey_quitToken, ofToken?_quitToken]
    exact (map_movedAll_nil e _).symm
  · cases htoken : Command.ofToken? token with
    | none =>
      simp only [obey, hquit, htoken, if_false]
      exact (map_movedAll_nil e _).symm
    | some c =>
      cases hp : s.agent? r with
      | none => simp [obey, hquit, htoken, hp]
      | some p => simp [obey, hquit, htoken, hp, Session.agent?_setPose, movedAll]

theorem agent?_told :
    (e.told s r id token now).agent? r = (s.agent? r).map fun p => e.movedAll p
      (if (s.checkTime e.options.timeLimit now).isRunning then Command.ofToken? token
        else none).toList := by
  by_cases hrun : (s.checkTime e.options.timeLimit now).isRunning
  · rw [told_of_running hrun, if_pos hrun]
    exact agent?_obey_self
  · rw [told_of_not_running hrun, if_neg hrun]
    exact (map_movedAll_nil e _).symm

theorem agent?_told_of_ne (h : r' ≠ r) :
    (e.told s r id token now).agent? r' = s.agent? r' := by
  by_cases hrun : (s.checkTime e.options.timeLimit now).isRunning
  · rw [told_of_running hrun]
    exact agent?_obey h
  · rw [told_of_not_running hrun]
    rfl

end Told

/-! ## What a call does to the poses -/

theorem token?_eq_none (h : ∀ host token, c = .send host token → u.reference host ≠ some id) :
    u.token? r id c = none := by
  cases c with
  | send host token =>
    apply if_neg
    intro hhost
    exact h host token rfl (reference_eq hhost)
  | _ => rfl

theorem hears_eq_none (h : u.token? r id c = none) : u.hears r id c = none := by
  unfold hears command?
  rw [h]
  split <;> rfl

theorem Turn.agent? (h : Turn u id c deed session?') (hsane : Sane u) (r : Role) :
    session?'.bind (·.agent? r) =
      ((u.pose? id r).or
        (if deed.any (·.admits r id) then some (u.engine.spawn r) else none)).map
          (u.engine.movedAll · (u.hears r id c).toList) := by
  cases h with
  | aside _ hadmits hsend =>
    have hnobody : deed.any (·.admits r id) = false := by
      rw [Option.any_eq_false]
      intro d hd
      simp [hadmits d hd r]
    rw [hnobody]
    change u.pose? id r = _
    cases hp : u.pose? id r with
    | none => simp
    | some p =>
      have hnone : u.hears r id c = none := by
        apply hears_eq_none
        apply token?_eq_none
        intro host token hc href
        simp [pose?, hsend host token hc href] at hp
      rw [hnone]
      rfl
  | founded _ _ hnone =>
    have hout : u.pose? id r = none := by simp [pose?, hnone]
    rw [hout]
    rfl
  | @admitted host _ _ r' s hs havail hout =>
    rw [hears_eq_none rfl, pose?_eq hs]
    change (s.enrol r' _ _).agent? r = Option.map (u.engine.movedAll · []) _
    rw [map_movedAll_nil, Session.agent?_enrol_of_out hout]
    by_cases hr : r = r'
    · simp [Deed.admits, hr]
    · simp [Deed.admits, hr]
  | @completed i p s hp hsession hs =>
    subst hsession
    have hout : ({ s with available := true } : Session).agent? .creator = none := by
      simp [Session.agent?, (hsane.unmade_of_underway hp hs).agents]
    rw [hears_eq_none rfl, pose?_eq hs]
    change (Session.enrol _ .creator _ _).agent? r = Option.map (u.engine.movedAll · []) _
    rw [map_movedAll_nil, Session.agent?_enrol_of_out hout]
    by_cases hr : r = .creator
    · simp [Deed.admits, Session.agent?, hr]
    · simp [Deed.admits, Session.agent?, hr]
  | @asked host s _ hs =>
    rw [hears_eq_none rfl, pose?_eq hs]
    change s.agent? r = Option.map (u.engine.movedAll · []) _
    rw [map_movedAll_nil]
    simp [Deed.admits]
  | @told host r' s token hhost hs =>
    rw [pose?_eq hs]
    change (u.engine.told s r' id token u.now).agent? r = _
    by_cases hr : r = r'
    · subst hr
      have htoken : u.token? r id (.send host token) = some token := if_pos hhost
      rw [agent?_told, hears, runs_eq hs, command?, htoken]
      change _ = Option.map _ ((s.agent? r).or none)
      rw [Option.or_none]
      rfl
    · have hnone : u.hears r id (.send host token) = none := by
        apply hears_eq_none
        simp [token?, hhost, Ne.symm hr]
      rw [agent?_told_of_ne hr, hnone]
      change _ = Option.map (u.engine.movedAll · []) _
      rw [map_movedAll_nil]
      simp [Deed.admits]

theorem pose?_serve (hsane : Sane u) (c : Call) :
    (u.serve c).2.pose? id r =
      ((u.pose? id r).or
        (if (u.serve c).1.any (·.admits r id) then some (u.engine.spawn r) else none)).map
          (u.engine.movedAll · (u.hears r id c).toList) :=
  (turn_serve u c id).agent? hsane r

theorem isSome_pose?_serve (hsane : Sane u) (h : (u.pose? id r).isSome) (c : Call) :
    ((u.serve c).2.pose? id r).isSome := by
  rw [pose?_serve hsane, Option.isSome_map, Option.isSome_or, h]
  rfl

/-! ## Hosts are in the sessions that they refer to -/

structure Loyal (u : Usage) : Prop where
  inside : ∀ (host : Nat) (r : Role) (id : SessionId), u.hosts[host]? = some ⟨r, some id⟩ →
    (u.pose? id r).isSome
  creators : ∀ i p, u.underway i = some p → u.roles[p.host]? = some .creator

theorem loyal_fresh (grid : Grid) (start finish : Cell) (options : Options) :
    Loyal (fresh grid start finish options) where
  inside host r id hhost := by simp [fresh, ofEngine] at hhost
  creators i p hp := by simp [underway, fresh, ofEngine] at hp

theorem roles_eq_of_host {host : Nat} {session : Option SessionId}
    (h : u.hosts[host]? = some ⟨r, session⟩) : u.roles[host]? = some r := by
  simp [roles, h]

theorem Served.loyal (hserved : Served u c deed u') (hsane : Sane u) (h : Loyal u)
    (hown : c.InRole u.roles) : Loyal u' := by
  have hpose : ∀ id r, u'.pose? id r = _ := fun id r => (hserved.turn id).agent? hsane r
  constructor
  case inside =>
    intro host r id hhost
    rw [hpose, Option.isSome_map, Option.isSome_or]
    rcases hserved.host_cases hhost with hold | ⟨hbefore, hjoined⟩
    · rw [h.inside host r id hold]
      rfl
    · have hrole := roles_eq_of_host hbefore
      rcases hjoined with ⟨_, _, r', rfl, rfl⟩ | ⟨i, p, hp, rfl, hsession, rfl⟩
      · obtain rfl : r = r' := Option.some.inj (hrole.symm.trans hown)
        simp [Deed.admits]
      · obtain rfl : r = .creator := Option.some.inj (hrole.symm.trans (h.creators i p hp))
        simp [Deed.admits, hsession]
  case creators =>
    intro i p hp
    rw [hserved.roles]
    have hprefix : u.roles[p.host]? = some .creator →
        (u.roles ++ c.entrant.toList)[p.host]? = some .creator := by
      intro hrole
      obtain ⟨hlt, -⟩ := List.getElem?_eq_some_iff.mp hrole
      rwa [List.getElem?_append_left hlt]
    apply hprefix
    rcases hserved.underway_cases hp with ⟨hold, -⟩ | ⟨-, rfl⟩
    · exact h.creators i p hold
    · obtain ⟨-, -, _, _, rfl⟩ := hserved.creating
      exact hown

/-- What an engine is like whose hosts join under their own roles. -/
structure Settled (u : Usage) : Prop where
  sane : Sane u
  loyal : Loyal u

theorem settled_fresh (grid : Grid) (start finish : Cell) (options : Options) :
    Settled (fresh grid start finish options) :=
  ⟨sane_fresh grid start finish options, loyal_fresh grid start finish options⟩

theorem Settled.serve (h : Settled u) (hown : c.InRole u.roles) : Settled (u.serve c).2 :=
  ⟨(served_serve u c).sane h.sane, (served_serve u c).loyal h.sane h.loyal hown⟩

theorem ownRoles_cons : OwnRoles u.roles (c :: calls) ↔
    c.InRole u.roles ∧ OwnRoles (u.serve c).2.roles calls := by
  rw [(served_serve u c).roles]
  rfl

theorem Settled.after (h : Settled u) (hown : OwnRoles u.roles calls) :
    Settled (u.after calls) := by
  induction calls generalizing u with
  | nil => exact h
  | cons c calls ih =>
    obtain ⟨hc, hcalls⟩ := ownRoles_cons.mp hown
    exact ih (h.serve hc) hcalls

theorem Loyal.hears_eq_none (h : Loyal u) (hout : u.pose? id r = none) (c : Call) :
    u.hears r id c = none := by
  apply Usage.hears_eq_none
  unfold token?
  split
  · apply if_neg
    intro hhost
    have hin := h.inside _ _ _ hhost
    rw [hout] at hin
    cases hin
  · rfl

/-! ## Poses after a run -/

theorem moved_serve (u : Usage) (c : Call) : (u.serve c).2.engine.movedAll = u.engine.movedAll := by
  have hmoved : (u.serve c).2.engine.moved = u.engine.moved := moved_after u [c]
  unfold movedAll
  rw [hmoved]

theorem granted_deeds_cons :
    granted (deeds (u.log (c :: calls))) r id =
      ((u.serve c).1.any (·.admits r id) || granted (deeds ((u.serve c).2.log calls)) r id) := by
  unfold granted deeds
  rw [log, List.filterMap_cons]
  cases (u.serve c).1 with
  | none => rfl
  | some d => rfl

theorem Settled.pose?_after (h : Settled u) (hown : OwnRoles u.roles calls) :
    (u.after calls).pose? id r =
      ((u.pose? id r).or
        (if granted (deeds (u.log calls)) r id then some (u.engine.spawn r) else none)).map
          (u.engine.movedAll · (u.heard r id calls)) := by
  induction calls generalizing u with
  | nil =>
    have hnobody : granted (deeds (u.log [])) r id = false := rfl
    rw [hnobody]
    change u.pose? id r = Option.map (u.engine.movedAll · []) ((u.pose? id r).or none)
    rw [map_movedAll_nil, Option.or_none]
  | cons c calls ih =>
    obtain ⟨hc, hcalls⟩ := ownRoles_cons.mp hown
    have hspawn : (u.serve c).2.engine.spawn r = u.engine.spawn r := spawn_after u [c] r
    have hsplit : ∀ p, u.engine.movedAll p (u.heard r id (c :: calls)) = u.engine.movedAll
        (u.engine.movedAll p (u.hears r id c).toList) ((u.serve c).2.heard r id calls) := by
      intro p
      exact List.foldl_append
    rw [after_cons, ih (h.serve hc) hcalls, pose?_serve h.sane, moved_serve, hspawn,
      granted_deeds_cons]
    simp only [hsplit]
    cases hp : u.pose? id r with
    | some p => rfl
    | none =>
      rw [h.loyal.hears_eq_none hp]
      cases (u.serve c).1.any (·.admits r id) <;> rfl

/-! ## When commands count -/

theorem heard_eq_nil_of_waiting (h : (u.after calls).begunAt? id = none) :
    u.heard r id calls = [] := by
  induction calls generalizing u with
  | nil => rfl
  | cons c calls ih =>
    have hnot : ¬ u.runs id := by
      intro hrun
      obtain ⟨b, hb⟩ := Option.isSome_iff_exists.mp (isSome_begunAt?_of_runs hrun)
      rw [begunAt?_after hb] at h
      cases h
    rw [heard, ih h, hears, if_neg hnot]
    rfl

theorem Stopped.heard_eq_nil (h : u.Stopped id) : u.heard r id calls = [] := by
  induction calls generalizing u with
  | nil => rfl
  | cons c calls ih =>
    rw [heard, ih (h.serve c), hears, if_neg h.2]
    rfl

theorem Turn.not_admits (h : Turn u id c deed session?') (hsane : Sane u)
    (hin : (u.pose? id r).isSome) : ∀ d ∈ deed, d.admits r id = false := by
  intro d hd
  cases h with
  | aside _ hadmits => exact hadmits d hd r
  | @admitted _ _ _ r' s hs _ hout =>
    obtain rfl := Option.some.inj hd
    refine decide_eq_false ?_
    rintro ⟨rfl, -⟩
    rw [pose?_eq hs, hout] at hin
    cases hin
  | @completed i p s hp hsession hs =>
    subst hsession
    simp [pose?_eq hs, Session.agent?, (hsane.unmade_of_underway hp hs).agents] at hin
  | founded | asked | told =>
    obtain rfl := Option.some.inj hd
    rfl

theorem Served.host_keeps {host : Nat} (h : Served u c deed u')
    (hhost : u.hosts[host]? = some ⟨r, some id⟩) : u'.hosts[host]? = some ⟨r, some id⟩ := by
  have hmodify : ∀ {host' id'}, (u.hosts.modify host' (·.afterJoin id' (.ok ())))[host]? =
      some ⟨r, some id⟩ := by
    intro host' id'
    rw [List.getElem?_modify, hhost]
    split <;> rfl
  cases h with
  | idle _ _ _ _ _ hhosts => rwa [hhosts]
  | entered r' =>
    obtain ⟨hlt, -⟩ := List.getElem?_eq_some_iff.mp hhost
    change (u.hosts ++ [Host.ofRole r'])[host]? = _
    rwa [List.getElem?_append_left hlt]
  | founded | asked | told => exact hhost
  | admitted | completed => exact hmodify

theorem Settled.token?_serve (h : Settled u) (hown : c.InRole u.roles)
    (hin : (u.pose? id r).isSome) : (u.serve c).2.token? r id = u.token? r id := by
  have hhosts : ∀ host : Nat, (u.serve c).2.hosts[host]? = some ⟨r, some id⟩ ↔
      u.hosts[host]? = some ⟨r, some id⟩ := by
    intro host
    constructor
    · intro hhost
      have hout := (turn_serve u c id).not_admits h.sane hin
      rcases (served_serve u c).host_cases hhost with hold | ⟨hbefore, hjoined⟩
      · exact hold
      · have hrole := roles_eq_of_host hbefore
        rcases hjoined with ⟨_, _, r', rfl, hdeed⟩ | ⟨i, p, hp, rfl, rfl, hdeed⟩
        · obtain rfl : r = r' := Option.some.inj (hrole.symm.trans hown)
          simpa [Deed.admits] using hout _ hdeed
        · obtain rfl : r = .creator :=
            Option.some.inj (hrole.symm.trans (h.loyal.creators i p hp))
          simpa [Deed.admits] using hout _ hdeed
    · exact (served_serve u c).host_keeps
  funext call
  unfold token?
  split
  · simp only [hhosts]
  · rfl

theorem Settled.heard_eq (h : Settled u) (hown : OwnRoles u.roles calls)
    (hin : (u.pose? id r).isSome) (hrun : u.runs id) (hend : (u.after calls).runs id) :
    u.heard r id calls = calls.filterMap (u.command? r id) := by
  induction calls generalizing u with
  | nil => rfl
  | cons c calls ih =>
    obtain ⟨hc, hcalls⟩ := ownRoles_cons.mp hown
    have hlater := ih (h.serve hc) hcalls (isSome_pose?_serve h.sane hin c)
      (runs_serve hrun hend) hend
    have hsame : (u.serve c).2.command? r id = u.command? r id := by
      funext call
      unfold command?
      rw [h.token?_serve hc hin]
    rw [heard, hlater, hsame, hears, if_pos hrun, List.filterMap_cons]
    cases u.command? r id c <;> rfl

end Usage

theorem cell_movedAll (e : Engine) (p : Pose) (cs : List Command) :
    (e.movedAll p cs).cell = p.cell ∨ e.grid.isOpen (e.movedAll p cs).cell := by
  induction cs generalizing p with
  | nil => exact .inl rfl
  | cons c cs ih =>
    change (e.movedAll (e.moved p c) cs).cell = p.cell ∨
      e.grid.isOpen (e.movedAll (e.moved p c) cs).cell
    rcases ih (e.moved p c) with hcell | hopen
    · rw [hcell]
      unfold moved
      dsimp only
      split
      · right
        assumption
      · exact .inl rfl
    · exact .inr hopen

/-! ## Agents do not influence each other -/

/-- After the calls no agent depends on more than what its own role has sent. -/
structure Insulated (u : Usage) (calls : List Call) : Prop where
  /-- A pose comes of the commands of the role while the session was running. -/
  pose : ∀ id r, (u.after calls).pose? id r =
    if granted (deeds (u.log calls)) r id then
      some (u.engine.movedAll (u.engine.spawn r) (u.heard r id calls))
    else none
  /-- Only commands of the role itself make a difference while the session is running, so that the
  roles may send theirs in any order. -/
  reordered : ∀ id r ds ds', OwnRoles (u.after calls).roles ds →
    OwnRoles (u.after calls).roles ds' → ((u.after calls).pose? id r).isSome →
    (u.after calls).runs id → ((u.after calls).after ds).runs id →
    ((u.after calls).after ds').runs id →
    ds.filterMap ((u.after calls).command? r id) = ds'.filterMap ((u.after calls).command? r id) →
    ((u.after calls).after ds).pose? id r = ((u.after calls).after ds').pose? id r
  /-- A call changes no session that it is not about. -/
  apart : ∀ c id, (u.after calls).subject c ≠ some id →
    ((u.after calls).serve c).2.session? id = (u.after calls).session? id
  /-- Before the session begins everyone is where it was put. -/
  waiting : ∀ id r p, (u.after calls).begunAt? id = none → (u.after calls).pose? id r = some p →
    p = u.engine.spawn r
  /-- After the end nobody moves. -/
  frozen : ∀ id r p ds, (u.after calls).Stopped id → OwnRoles (u.after calls).roles ds →
    (u.after calls).pose? id r = some p → ((u.after calls).after ds).pose? id r = some p
  ground : ∀ id r p, (u.after calls).pose? id r = some p →
    p.cell = (u.engine.spawn r).cell ∨ u.engine.grid.isOpen p.cell

theorem insulated (grid : Grid) (start finish : Cell) (options : Options) (calls : List Call)
    (hown : OwnRoles [] calls) : Insulated (.fresh grid start finish options) calls := by
  have hfresh : Usage.Settled (.fresh grid start finish options) :=
    Usage.settled_fresh grid start finish options
  have hsettled := hfresh.after hown
  have hpose : ∀ id r, ((Usage.fresh grid start finish options).after calls).pose? id r = _ :=
    fun id r => hfresh.pose?_after hown
  have hnobody : ∀ id r, (Usage.fresh grid start finish options).pose? id r = none := by
    intro id r
    simp [Usage.pose?, Usage.session?, session?, Usage.fresh, Usage.ofEngine, ofMaze]
  simp only [hnobody, Option.none_or] at hpose
  have hsome : ∀ id r p, ((Usage.fresh grid start finish options).after calls).pose? id r = some p →
      p = movedAll (Usage.fresh grid start finish options).engine
        ((Usage.fresh grid start finish options).engine.spawn r)
        ((Usage.fresh grid start finish options).heard r id calls) := by
    intro id r p hp
    rw [hpose] at hp
    split at hp
    · exact (Option.some.inj hp).symm
    · cases hp
  constructor
  case pose =>
    intro id r
    rw [hpose]
    split <;> rfl
  case reordered =>
    intro id r ds ds' hds hds' hin hrun hend hend' hsame
    rw [hsettled.pose?_after hds, hsettled.pose?_after hds', hsettled.heard_eq hds hin hrun hend,
      hsettled.heard_eq hds' hin hrun hend', hsame]
    obtain ⟨p, hp⟩ := Option.isSome_iff_exists.mp hin
    rw [hp]
    rfl
  case apart =>
    intro c id hne
    exact (Usage.turn_serve _ c id).eq_of_subject_ne hne
  case waiting =>
    intro id r p hwaiting hp
    rw [hsome id r p hp, Usage.heard_eq_nil_of_waiting hwaiting]
    rfl
  case frozen =>
    intro id r p ds hstopped hds hp
    rw [hsettled.pose?_after hds, hstopped.heard_eq_nil, hp]
    rfl
  case ground =>
    intro id r p hp
    rw [hsome id r p hp]
    exact cell_movedAll _ _ _

/-! ## Two roles in a session -/

namespace Usage

variable {grid : Grid} {start finish : Cell} {limit : Option Nat} {id : SessionId}

/-- Two roles join a session, and it begins. -/
def pairing (id : SessionId) : List Call :=
  [.enter .creator, .enter ⟨1⟩, .join 0 2 2 .creator id, .complete 0, .join 1 2 2 ⟨1⟩ id]

theorem after_pairing : let paired := (fresh grid start finish ⟨0, limit⟩).after (pairing id)
    paired.now = 0 ∧ paired.hosts = [⟨.creator, some id⟩, ⟨⟨1⟩, some id⟩] ∧
      paired.session? id = some ⟨2, true,
        [(.creator, ⟨start, .south⟩), (⟨1⟩, ⟨finish, .north⟩)], some 0, false⟩ := by
  let e : Engine := .ofMaze grid start finish ⟨0, limit⟩
  let half : Session := { Session.ofExpected 2 with available := true }.enrol .creator
    (e.spawn .creator) 0
  let founded : Usage := ⟨0, e.setSession id (.ofExpected 2), [⟨.creator, none⟩, ⟨⟨1⟩, none⟩], 2,
    [.creating ⟨0, id, 0⟩]⟩
  let created : Usage := ⟨0, founded.engine.setSession id half,
    [⟨.creator, some id⟩, ⟨⟨1⟩, none⟩], 2, [.answered (.ok ())]⟩
  have hnone : e.session? id = none := by simp [e, ofMaze, Engine.session?]
  have hfounded : (Usage.serve ⟨0, e, [⟨.creator, none⟩, ⟨⟨1⟩, none⟩], 0, []⟩
      (.join 0 2 2 .creator id)).2 = founded :=
    serve_founding (u := ⟨0, e, [⟨.creator, none⟩, ⟨⟨1⟩, none⟩], 0, []⟩) Nat.zero_lt_two
      (Nat.le_refl 2) Nat.zero_lt_two hnone
  have hcreated : (founded.serve (.complete 0)).2 = created :=
    serve_completing (u := founded) (p := ⟨0, id, 0⟩) rfl (Nat.le_refl 0) session?_setSession_self
  intro paired
  have hpaired : paired = (created.serve (.join 1 2 2 ⟨1⟩ id)).2 := by
    rw [← hcreated, ← hfounded]
    rfl
  rw [hpaired, serve_admitting (u := created) Nat.one_lt_two (Nat.le_refl 2) Nat.one_lt_two
    (by decide) session?_setSession_self rfl rfl]
  refine ⟨rfl, rfl, ?_⟩
  exact session?_setSession_self

theorem runs_pairing : ((fresh grid start finish ⟨0, none⟩).after (pairing id)).runs id := by
  obtain ⟨-, -, hsession⟩ : _ ∧ _ ∧
      ((fresh grid start finish ⟨0, none⟩).after (pairing id)).session? id = _ := after_pairing
  rw [runs_eq hsession, limit_after]
  rfl

end Usage

/-- It does not matter which of two roles turns first. -/
theorem insulated_pair : let id : SessionId := ⟨"s"⟩
    let u : Usage := .fresh default ⟨1, 1⟩ ⟨3, 3⟩ ⟨0, none⟩
    let paired := u.after (Usage.pairing id)
    OwnRoles [] (Usage.pairing id) ∧ Insulated u (Usage.pairing id) ∧
      paired.pose? id ⟨1⟩ = some ⟨⟨3, 3⟩, .north⟩ ∧
      (paired.after [.send 0 "turn 1", .send 1 "turn -1"]).pose? id ⟨1⟩ =
        (paired.after [.send 1 "turn -1", .send 0 "turn 1"]).pose? id ⟨1⟩ := by
  intro id u paired
  have hown : OwnRoles [] (Usage.pairing id) := by decide
  have hinsulated := insulated default ⟨1, 1⟩ ⟨3, 3⟩ ⟨0, none⟩ (Usage.pairing id) hown
  obtain ⟨-, hhosts, hsession⟩ : paired.now = 0 ∧ paired.hosts = _ ∧ paired.session? id = _ :=
    Usage.after_pairing
  have hrun : paired.runs id := Usage.runs_pairing
  have hpose : paired.pose? id ⟨1⟩ = some ⟨⟨3, 3⟩, .north⟩ := Usage.pose?_eq hsession
  have hcommand : ∀ token, paired.command? ⟨1⟩ id (.send 0 token) = none := by
    intro token
    have hnone : paired.token? ⟨1⟩ id (.send 0 token) = none := by
      apply if_neg
      rw [hhosts]
      decide
    unfold Usage.command?
    rw [hnone]
    rfl
  have hsame : [Call.send 0 "turn 1", .send 1 "turn -1"].filterMap (paired.command? ⟨1⟩ id) =
      [Call.send 1 "turn -1", .send 0 "turn 1"].filterMap (paired.command? ⟨1⟩ id) := by
    simp only [List.filterMap_cons, List.filterMap_nil, hcommand]
  refine ⟨hown, hinsulated, hpose, ?_⟩
  apply hinsulated.reordered id ⟨1⟩ _ _ _ _ _ hrun _ _ hsame
  · exact ⟨trivial, trivial, trivial⟩
  · exact ⟨trivial, trivial, trivial⟩
  · exact Option.isSome_iff_exists.mpr ⟨_, hpose⟩
  · exact Usage.runs_serve_send (Usage.runs_serve_send hrun (by decide)) (by decide)
  · exact Usage.runs_serve_send (Usage.runs_serve_send hrun (by decide)) (by decide)

end Labyrinth.Engine

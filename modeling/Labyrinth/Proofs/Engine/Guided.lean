import Labyrinth.Proofs.Engine.Poses

/-!
# Guided agents

The engine walks what the planner has planned. An agent whose role sends the commands of its plan
one by one stands on the planned cell after each of them, whatever others do in the meantime.
-/

namespace Labyrinth

/-! ## Beginnings of a plan -/

theorem Engine.visited_take_subset (p : Pose) (cs : List Command) (k : Nat) :
    p.visited (cs.take k) ⊆ p.visited cs := by
  induction cs generalizing p k with
  | nil => simp
  | cons c cs ih =>
    cases k with
    | zero =>
      intro d hd
      obtain rfl := List.mem_singleton.mp hd
      exact cell_mem_visited p (c :: cs)
    | succ k =>
      cases c with
      | moveForward => exact List.cons_subset_cons _ (ih (p.apply .moveForward) k)
      | turnLeft => exact ih (p.apply .turnLeft) k
      | turnRight => exact ih (p.apply .turnRight) k

variable {path : List Cell}

theorem Engine.exists_unhindered_plan (e : Engine) (r : Role)
    (h : e.grid.Walk e.start e.finish path) :
    ∃ rest actions, r.route path e.start e.finish = (e.spawn r).cell :: rest ∧
      ((e.spawn r).cell :: rest).IsChain Cell.Adjacent ∧
      r.plan path e.start e.finish = .ok actions ∧
      Plan.Leads (e.spawn r) actions (Plan.arrival (e.spawn r) rest) ∧
      ∀ k, e.movedAll (e.spawn r) ((actions.take k).map Action.command) =
        (e.spawn r).applyAll ((actions.take k).map Action.command) := by
  have hroute := Role.walk_route (r := r) h
  obtain ⟨rest, hrest⟩ := hroute.exists_cons
  rw [hrest] at hroute
  obtain ⟨actions, hok⟩ := Plan.exists_walk_eq_ok (p := e.spawn r) hroute.linked 1
  refine ⟨rest, actions, hrest, hroute.linked, ?_, Plan.walk_leads hok, ?_⟩
  · rw [Role.plan, hrest]
    exact hok
  · intro k
    apply movedAll_eq_applyAll
    intro c hc
    rw [List.map_take] at hc
    have hvisited := visited_take_subset _ _ k hc
    rw [Plan.walk_visited hok] at hvisited
    exact hroute.floor c hvisited

namespace Engine

namespace Usage

variable {u : Usage} {calls : List Call} {id : SessionId} {r : Role} {host : Nat}

/-! ## Commands that are accepted -/

theorem serve_command (hhost : u.hosts[host]? = some ⟨r, some id⟩) (hrun : u.runs id)
    (hin : (u.pose? id r).isSome) (command : Command) :
    (u.serve (.send host command.token)).1 = some (.sent host command.token (.ok ())) := by
  obtain ⟨s, hs, hrunning : (s.checkTime u.engine.options.timeLimit u.now).isRunning⟩ :=
    runs_iff.mp hrun
  obtain ⟨p, hp⟩ := Option.isSome_iff_exists.mp hin
  rw [pose?_eq hs] at hp
  have hchecked : (s.checkTime u.engine.options.timeLimit u.now).agent? r = some p := hp
  have hanswer : (u.engine.send r id command.token u.now).1 = .ok () := by
    rw [send_eq hs, if_pos hrunning, obey_token hchecked]
  change ((u.send host command.token).1).map (Deed.sent host command.token) = _
  unfold send
  simp only [hhost, Host.send, hanswer]
  rfl

theorem token?_eq_some_iff {c : Call} {token : String} : u.token? r id c = some token ↔
    ∃ host, c = .send host token ∧ u.hosts[host]? = some ⟨r, some id⟩ := by
  cases c with
  | send host t =>
    unfold token?
    simp only [Option.ite_none_right_eq_some, Option.some.injEq, Call.send.injEq]
    constructor
    · rintro ⟨hhost, rfl⟩
      exact ⟨host, ⟨rfl, rfl⟩, hhost⟩
    · rintro ⟨_, ⟨rfl, rfl⟩, hhost⟩
      exact ⟨hhost, rfl⟩
  | _ => simp [token?]

theorem Settled.accepts (h : Settled u) (hown : OwnRoles u.roles calls)
    (hin : (u.pose? id r).isSome) (hrun : u.runs id) (hend : (u.after calls).runs id)
    (hvalid : ∀ token ∈ calls.filterMap (u.token? r id), ∃ command : Command,
      token = command.token) :
    ∀ entry ∈ u.log calls, ∀ token, u.token? r id entry.call = some token →
      ∃ host, entry.deed = some (.sent host token (.ok ())) := by
  induction calls generalizing u with
  | nil =>
    intro entry hentry
    cases hentry
  | cons c calls ih =>
    intro entry hentry token htoken
    obtain ⟨hc, hcalls⟩ := ownRoles_cons.mp hown
    rcases List.mem_cons.mp hentry with rfl | hlater
    · obtain ⟨host, rfl, hhost⟩ := token?_eq_some_iff.mp htoken
      obtain ⟨command, rfl⟩ := hvalid token (List.mem_filterMap.mpr ⟨_, List.mem_cons_self, htoken⟩)
      exact ⟨host, serve_command hhost hrun hin command⟩
    · have hsame := h.token?_serve hc hin
      refine ih (h.serve hc) hcalls (isSome_pose?_serve h.sane hin c) (runs_serve hrun hend) hend ?_
        entry hlater token ?_
      · intro token htoken
        rw [hsame] at htoken
        obtain ⟨call, hcall, hsent⟩ := List.mem_filterMap.mp htoken
        exact hvalid token (List.mem_filterMap.mpr ⟨call, List.mem_cons_of_mem _ hcall, hsent⟩)
      · rwa [hsame]

end Usage

/-! ## Plans in the engine -/

/-- During the calls a role sends the first commands of a plan for a route, and its agent goes where
the plan says. -/
structure Guided (u : Usage) (id : SessionId) (r : Role) (route : List Cell)
    (actions : List Action) (calls : List Call) (sent : Nat) : Prop where
  accepted : ∀ entry ∈ u.log calls, ∀ token, u.token? r id entry.call = some token →
    ∃ host, entry.deed = some (.sent host token (.ok ()))
  onTarget : ((u.after calls).pose? id r).map Pose.cell =
    (route.take 1 ++ actions.map Action.target)[sent]?
  /-- In the end the agent stands on the last cell and looks along the last step. -/
  arrived : sent = actions.length → ∃ p, (u.after calls).pose? id r = some p ∧
    route.getLast? = some p.cell ∧
    ∀ before a b, route = before ++ [a, b] → p.heading.step = (b.x - a.x, b.z - a.z)

/-- A role that is in a running session, and has not moved there, has a plan for every path. If it
sends the first commands of the plan while the session goes on running, its agent follows the plan,
whatever the other calls are. -/
theorem guided {grid : Grid} {start finish : Cell} {path : List Cell} (options : Options)
    {calls : List Call} {id : SessionId} {r : Role} (hwalk : grid.Walk start finish path)
    (hown : OwnRoles [] calls) :
    let u := (Usage.fresh grid start finish options).after calls
    u.pose? id r = some (r.spawn start finish) → u.runs id →
      ∃ actions, r.plan path start finish = .ok actions ∧
        ∀ more sent, OwnRoles u.roles more → (u.after more).runs id → sent ≤ actions.length →
          more.filterMap (u.token? r id) = (actions.take sent).map (·.command.token) →
          Guided u id r (r.route path start finish) actions more sent := by
  intro u hpose hrun
  have hsettled : Usage.Settled u := (Usage.settled_fresh grid start finish options).after hown
  obtain ⟨rest, actions, hroute, hlinked, hplan, hleads, hunhindered⟩ :=
    exists_unhindered_plan (.ofMaze grid start finish options) r hwalk
  change r.route path start finish = (r.spawn start finish).cell :: rest at hroute
  change Plan.Leads (r.spawn start finish) actions (Plan.arrival (r.spawn start finish) rest)
    at hleads
  have hin : (u.pose? id r).isSome := Option.isSome_iff_exists.mpr ⟨_, hpose⟩
  refine ⟨actions, hplan, ?_⟩
  intro more sent hmore hend hsent htokens
  -- What the role has sent reads as the first commands of its plan.
  have hheard : u.heard r id more = (actions.take sent).map Action.command := by
    rw [hsettled.heard_eq hmore hin hrun hend]
    change more.filterMap (fun c => (u.token? r id c).bind Command.ofToken?) = _
    rw [← List.filterMap_filterMap, htokens, List.filterMap_map]
    have hread : (Command.ofToken? ∘ fun a : Action => a.command.token) =
        fun a => some a.command := by
      funext a
      exact ofToken?_token a.command
    rw [hread]
    exact congrFun List.filterMap_eq_map _
  have hreached : (u.after more).pose? id r = some ((r.spawn start finish).applyAll
      ((actions.take sent).map Action.command)) := by
    have hmoved : u.engine.movedAll = (Engine.ofMaze grid start finish options).movedAll := by
      unfold movedAll
      rw [Usage.moved_after]
      rfl
    rw [hsettled.pose?_after hmore, hpose, hheard, hmoved]
    exact congrArg some (hunhindered sent)
  constructor
  case accepted =>
    apply hsettled.accepts hmore hin hrun hend
    intro token htoken
    rw [htokens] at htoken
    obtain ⟨a, -, rfl⟩ := List.mem_map.mp htoken
    exact ⟨a.command, rfl⟩
  case onTarget =>
    have hcell := hleads.cell_applyAll_take sent hsent
    rw [hreached, hroute]
    exact hcell.symm
  case arrived =>
    rintro rfl
    rw [List.take_length, hleads.applyAll] at hreached
    refine ⟨_, hreached, ?_, ?_⟩
    · rw [hroute, Plan.cell_arrival]
      exact List.getLast?_eq_some_getLast _
    · intro before a b hlast
      exact Plan.step_heading_arrival (hroute.symm.trans hlast) hlinked

/-- The second role walks to the start, and the first one turns on its cell in the meantime. -/
theorem guided_pair : let id : SessionId := ⟨"s"⟩
    let grid := ((Grid.filled 4).dig ⟨1, 1⟩).dig ⟨1, 2⟩
    let paired := (Usage.fresh grid ⟨1, 1⟩ ⟨1, 2⟩ ⟨0, none⟩).after (Usage.pairing id)
    let more := [Call.send 0 "turn 1", .send 1 "move 1", .send 0 "turn 1"]
    grid.Walk ⟨1, 1⟩ ⟨1, 2⟩ [⟨1, 1⟩, ⟨1, 2⟩] ∧ OwnRoles [] (Usage.pairing id) ∧ paired.runs id ∧
      (paired.after more).runs id ∧
      paired.pose? id ⟨1⟩ = some ⟨⟨1, 2⟩, .north⟩ ∧
      ∃ p, (paired.after more).pose? id ⟨1⟩ = some p ∧ p.cell = ⟨1, 1⟩ ∧
        p.heading.step = (0, -1) := by
  intro id grid paired more
  have hwalk : grid.Walk ⟨1, 1⟩ ⟨1, 2⟩ [⟨1, 1⟩, ⟨1, 2⟩] :=
    ⟨rfl, rfl, by decide, by decide⟩
  have hown : OwnRoles [] (Usage.pairing id) := by decide
  obtain ⟨-, hhosts, hsession⟩ : paired.now = 0 ∧ paired.hosts = _ ∧ paired.session? id = _ :=
    Usage.after_pairing
  have hrun : paired.runs id := Usage.runs_pairing
  have hend : (paired.after more).runs id :=
    Usage.runs_serve_send (Usage.runs_serve_send (Usage.runs_serve_send hrun (by decide))
      (by decide)) (by decide)
  have hpose : paired.pose? id ⟨1⟩ = some ⟨⟨1, 2⟩, .north⟩ := Usage.pose?_eq hsession
  have htokens : more.filterMap (paired.token? ⟨1⟩ id) = ["move 1"] := by
    simp [more, Usage.token?, hhosts, Role.creator]
  obtain ⟨actions, hplan, hguided⟩ := guided ⟨0, none⟩ hwalk hown hpose hrun
  obtain rfl : [⟨.moveForward, ⟨1, 1⟩⟩] = actions := Except.ok.inj hplan
  obtain ⟨-, -, harrived⟩ :=
    hguided more 1 ⟨trivial, trivial, trivial, trivial⟩ hend (Nat.le_refl 1) htokens
  obtain ⟨p, hp, hlast, hheading⟩ := harrived rfl
  refine ⟨hwalk, hown, hrun, hend, hpose, p, hp, (Option.some.inj hlast).symm, ?_⟩
  exact hheading [] ⟨1, 2⟩ ⟨1, 1⟩ rfl

end Engine

end Labyrinth

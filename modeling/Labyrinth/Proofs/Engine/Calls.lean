import Labyrinth.Proofs.Engine.Agreement

/-!
# Calls

Any number of hosts call one engine in any order, and time passes between the calls. Every join
brings a scene and a pool of its own. A join that starts a creation is over only when the creation
is completed, which is a call of its own and comes when the creation is due or later. `Served` says
all that a call can do.
-/

namespace Labyrinth.Engine

inductive Call where
  /-- A new host is bound to a role. -/
  | enter (r : Role)
  | wait (span : Nat)
  | join (host sceneRoles poolSize : Nat) (r : Role) (id : SessionId)
  /-- Completes one of the creations that were started, counted from the oldest. -/
  | complete (creation : Nat)
  | status (host : Nat)
  | send (host : Nat) (token : String)
  | observe (host : Nat)
deriving DecidableEq

/-- The role of the host that is new. -/
def Call.entrant : Call → Option Role
  | .enter r => some r
  | _ => none

/-- How long the call takes. -/
def Call.span : Call → Nat
  | .wait span => span
  | _ => 0

namespace Usage

/-- One of the creations that were started, if it goes on. -/
def underway (u : Usage) (i : Nat) : Option Creation := u.side[i]? >>= Joining.creation?

def beginJoin (u : Usage) (host sceneRoles poolSize : Nat) (r : Role) (id : SessionId) :
    Option Deed × Usage :=
  if host < u.hosts.length then
    match { u with sceneRoles }.startJoin host r id poolSize with
    | (.answered a, u) => (some (.joined host r id a), u)
    | (.creating c, u) => (some (.creating r c), { u with side := u.side ++ [.creating c] })
  else (none, u)

def complete (u : Usage) (i : Nat) : Option Deed × Usage :=
  match u.underway i with
  | none => (none, u)
  | some c =>
    if c.due ≤ u.now then
      let (a, u) := u.finish { c with due := u.now }
      (some (.created c a), { u with side := u.side.set i (.answered a) })
    else (none, u)

/-- What a call does, and the deed it amounts to. A call that cannot be made does nothing. -/
def serve (u : Usage) : Call → Option Deed × Usage
  | .enter r => (none, u.addHost r)
  | .wait span => (none, { u with now := u.now + span })
  | .join host sceneRoles poolSize r id => u.beginJoin host sceneRoles poolSize r id
  | .complete i => u.complete i
  | .status host => ((u.status host).1.map (.asked host), (u.status host).2)
  | .send host token => ((u.send host token).1.map (.sent host token), (u.send host token).2)
  | .observe host => (some (.observed host (u.observe host)), u)

def after (u : Usage) (calls : List Call) : Usage := calls.foldl (fun u c => (u.serve c).2) u

/-- An engine that nobody has called yet. -/
def fresh (grid : Grid) (start finish : Cell) (options : Options) : Usage :=
  .ofEngine (.ofMaze grid start finish options) 0

end Usage

/-- A call as it was made: when, and what came of it. -/
structure Entry where
  time : Nat
  call : Call
  deed : Option Deed

def deeds (log : List Entry) : List Deed := log.filterMap Entry.deed

namespace Usage

def log (u : Usage) : List Call → List Entry
  | [] => []
  | c :: calls => ⟨u.now, c, (u.serve c).1⟩ :: (u.serve c).2.log calls

/-! ## What can be seen of a session -/

def session? (u : Usage) (id : SessionId) : Option Session := u.engine.session? id

def pose? (u : Usage) (id : SessionId) (r : Role) : Option Pose :=
  (u.session? id).bind (·.agent? r)

def roles (u : Usage) : List Role := u.hosts.map Host.role

/-- The session that a host refers to. -/
def reference (u : Usage) (host : Nat) : Option SessionId := u.hosts[host]?.bind Host.session

def limit (u : Usage) : Option Nat := u.engine.options.timeLimit

/-- The session is running, as a status would tell. -/
def runs (u : Usage) (id : SessionId) : Bool :=
  (u.session? id).any fun s => (s.checkTime u.limit u.now).isRunning

/-- The session that a call is about. -/
def subject (u : Usage) : Call → Option SessionId
  | .enter _ | .wait _ => none
  | .join _ _ _ _ id => some id
  | .complete i => (u.underway i).map Creation.session
  | .status host | .send host _ | .observe host => u.reference host

variable {u : Usage} {c : Call} {calls : List Call}

/-! ## Runs -/

@[simp] theorem after_cons : u.after (c :: calls) = (u.serve c).2.after calls := rfl

/-! ## What goes on -/

theorem underway_set_answered {i k : Nat} {p : Creation} {a : Except JoinError Unit} :
    { u with side := u.side.set i (.answered a) }.underway k = some p ↔
      k ≠ i ∧ u.underway k = some p := by
  unfold underway
  dsimp only
  rw [List.getElem?_set]
  by_cases hk : i = k
  · subst hk
    rw [if_pos rfl]
    split <;> simp [Joining.creation?]
  · simp [hk, Ne.symm hk]

theorem underway_append_creating {k : Nat} {p q : Creation} :
    { u with side := u.side ++ [Joining.creating p] }.underway k = some q ↔
      u.underway k = some q ∨ k = u.side.length ∧ p = q := by
  unfold underway
  dsimp only
  rcases Nat.lt_trichotomy k u.side.length with hk | rfl | hk
  · simp [List.getElem?_append_left hk, Nat.ne_of_lt hk]
  · simp [Joining.creation?]
  · have hnone : (u.side ++ [Joining.creating p])[k]? = none := by
      apply List.getElem?_eq_none
      rw [List.length_append, List.length_singleton]
      omega
    simp [hnone, List.getElem?_eq_none (Nat.le_of_lt hk), Nat.ne_of_gt hk]

/-! ## What a call does -/

theorem map_role_modify (hosts : List Host) (host : Nat) (id : SessionId)
    (a : Except JoinError Unit) :
    (hosts.modify host (·.afterJoin id a)).map Host.role = hosts.map Host.role := by
  have hrole : ∀ h : Host, (h.afterJoin id a).role = h.role := fun h => by cases a <;> rfl
  apply List.ext_getElem?
  intro i
  rw [List.getElem?_map, List.getElem?_map, List.getElem?_modify]
  split
  · simp [Function.comp_def, hrole]
  · simp

theorem modify_afterJoin_error (hosts : List Host) (host : Nat) (id : SessionId) (e : JoinError) :
    hosts.modify host (·.afterJoin id (.error e)) = hosts := by
  apply List.ext_getElem?
  intro i
  rw [List.getElem?_modify]
  split <;> simp [Host.afterJoin]

end Usage

/-- What becomes of a session when one who is in it sends a command. -/
def told (e : Engine) (s : Session) (r : Role) (id : SessionId) (token : String) (now : Nat) :
    Session :=
  let s := s.checkTime e.options.timeLimit now
  if s.isRunning then (e.obey s r id token).2 else s

section Told

variable {e : Engine} {s : Session} {r : Role} {id : SessionId} {token : String} {now : Nat}

theorem told_of_running (h : (s.checkTime e.options.timeLimit now).isRunning) :
    e.told s r id token now = (e.obey (s.checkTime e.options.timeLimit now) r id token).2 :=
  if_pos h

theorem told_of_not_running (h : ¬ (s.checkTime e.options.timeLimit now).isRunning) :
    e.told s r id token now = s.checkTime e.options.timeLimit now :=
  if_neg h

end Told

theorem send_eq {e : Engine} {id : SessionId} {s : Session} {r : Role} {token : String} {now : Nat}
    (hs : e.session? id = some s) :
    e.send r id token now =
      (if (s.checkTime e.options.timeLimit now).isRunning then
        (e.obey (s.checkTime e.options.timeLimit now) r id token).1 else .ok (),
        e.setSession id (e.told s r id token now)) := by
  unfold send current told
  rw [hs]
  dsimp only
  split <;> rfl

theorem number_lt_of_join {e e' : Engine} {n poolSize now : Nat} {r : Role} {id : SessionId}
    (h : e.join n poolSize r id now = (.creating, e')) : r.number < n := by
  unfold join at h
  split_ifs at h with hpool hr
  · cases h
  · cases h
  · exact Nat.not_le.mp hr
  · cases h

namespace Usage

/-- What comes of a call: the deed and the state after it. -/
inductive Served (u : Usage) : Call → Option Deed → Usage → Prop where
  /-- Nobody is let in and no session changes. -/
  | idle {c : Call} {deed : Option Deed} {u' : Usage} (hdeed : ∀ d ∈ deed, d.Idle)
      (henter : c.entrant = none)
      (hsend : ∀ host token, c = .send host token → ∀ id ∈ u.reference host, u.session? id = none)
      (hnow : u'.now = u.now + c.span) (hengine : u'.engine = u.engine) (hhosts : u'.hosts = u.hosts)
      (hside : ∀ i p, u'.underway i = some p → u.underway i = some p) :
      Served u c deed u'
  | entered (r : Role) : Served u (.enter r) none (u.addHost r)
  | founded {sceneRoles poolSize : Nat} {p : Creation} (hhost : p.host < u.hosts.length)
      (hroles : 0 < sceneRoles) (hnone : u.session? p.session = none) :
      Served u (.join p.host sceneRoles poolSize .creator p.session) (some (.creating .creator p))
        { u with
          sceneRoles
          engine := u.engine.setSession p.session (.ofExpected sceneRoles)
          side := u.side ++ [.creating p] }
  | admitted {host sceneRoles poolSize : Nat} {r : Role} {id : SessionId} {s : Session}
      (hhost : host < u.hosts.length) (hs : u.session? id = some s) (havail : s.available)
      (hout : s.agent? r = none) :
      Served u (.join host sceneRoles poolSize r id) (some (.joined host r id (.ok ())))
        { u with
          sceneRoles
          engine := u.engine.setSession id (s.enrol r (u.engine.spawn r) u.now)
          hosts := u.hosts.modify host (·.afterJoin id (.ok ())) }
  | completed {i : Nat} {p : Creation} {s : Session} (hp : u.underway i = some p)
      (hs : u.session? p.session = some s) :
      Served u (.complete i) (some (.created p (.ok ())))
        { u with
          engine := u.engine.setSession p.session
            ({ s with available := true }.enrol .creator (u.engine.spawn .creator) u.now)
          hosts := u.hosts.modify p.host (·.afterJoin p.session (.ok ()))
          side := u.side.set i (.answered (.ok ())) }
  | asked {host : Nat} {id : SessionId} {s : Session} (hhost : u.reference host = some id)
      (hs : u.session? id = some s) :
      Served u (.status host)
        (some (.asked host (.ok ⟨s.begunAt.isSome, (s.checkTime u.limit u.now).isRunning⟩)))
        { u with engine := u.engine.setSession id (s.checkTime u.limit u.now) }
  | told {host : Nat} {r : Role} {id : SessionId} {s : Session} {token : String}
      (hhost : u.hosts[host]? = some ⟨r, some id⟩) (hs : u.session? id = some s)
      (answer : Except String Unit) (hquit : token = Command.quitToken → answer = .ok ()) :
      Served u (.send host token) (some (.sent host token answer))
        { u with engine := u.engine.setSession id (u.engine.told s r id token u.now) }

theorem served_beginJoin (u : Usage) (host sceneRoles poolSize : Nat) (r : Role) (id : SessionId) :
    Served u (.join host sceneRoles poolSize r id) (u.beginJoin host sceneRoles poolSize r id).1
      (u.beginJoin host sceneRoles poolSize r id).2 := by
  unfold beginJoin
  split
  · rename_i hhost
    unfold startJoin
    dsimp only
    -- A refused join leaves everything as it was.
    have hrefused : ∀ error, Served u (.join host sceneRoles poolSize r id)
        (some (.joined host r id (.error error)))
        { u with sceneRoles, hosts := u.hosts.modify host (·.afterJoin id (.error error)) } := by
      intro error
      rw [modify_afterJoin_error]
      refine .idle ?_ rfl (by simp) rfl rfl rfl fun _ _ h => h
      rintro _ ⟨⟩
      exact Deed.idle_joined_error error
    by_cases hpool : sceneRoles ≤ poolSize
    · cases hjoin : u.engine.join sceneRoles poolSize r id u.now with
      | mk step engine =>
        have hjoins : Joins u.engine sceneRoles r id u.now
            (u.engine.join sceneRoles poolSize r id u.now).1
            (u.engine.join sceneRoles poolSize r id u.now).2 := joins_join hpool
        rw [hjoin] at hjoins
        cases hjoins with
        | stranger | taken | early | inside => exact hrefused _
        | creates hrole hnone =>
          subst hrole
          have hroles := number_lt_of_join hjoin
          exact .founded (p := ⟨host, id, _⟩) hhost hroles hnone
        | admitted s _ _ hs havail hout => exact .admitted hhost hs havail hout
    · have hjoin : u.engine.join sceneRoles poolSize r id u.now =
          (.answered (.error .noFreeClient), u.engine) := if_pos (Nat.not_le.mp hpool)
      rw [hjoin]
      exact hrefused _
  · exact .idle (by simp) rfl (by simp) rfl rfl rfl fun _ _ h => h

theorem served_complete (u : Usage) (i : Nat) :
    Served u (.complete i) (u.complete i).1 (u.complete i).2 := by
  have hnothing : Served u (.complete i) none u :=
    .idle (by simp) rfl (by simp) rfl rfl rfl fun _ _ h => h
  unfold complete
  split
  · exact hnothing
  · rename_i p hp
    split
    · unfold finish
      cases hs : u.session? p.session with
      | some s =>
        rw [finishCreation_eq hs]
        exact .completed hp hs
      | none =>
        have hvanished : u.engine.session? p.session = none := hs
        unfold finishCreation
        rw [hvanished]
        dsimp only
        rw [modify_afterJoin_error]
        refine .idle ?_ rfl (by simp) rfl rfl rfl ?_
        · rintro _ ⟨⟩
          exact ⟨fun _ => rfl, fun _ _ => rfl⟩
        · intro k q hk
          exact (underway_set_answered.mp hk).2
    · exact hnothing

theorem reference_eq {u : Usage} {host : Nat} {h : Host} (hhost : u.hosts[host]? = some h) :
    u.reference host = h.session := by
  unfold reference
  rw [hhost]
  rfl

theorem served_status (u : Usage) (host : Nat) :
    Served u (.status host) (u.serve (.status host)).1 (u.serve (.status host)).2 := by
  have hidle : ∀ answer : Option (Except String Status),
      Served u (.status host) (answer.map (.asked host)) u := by
    intro answer
    refine .idle ?_ rfl (by simp) rfl rfl rfl fun _ _ h => h
    intro d hd
    obtain ⟨reply, -, rfl⟩ := Option.map_eq_some_iff.mp hd
    exact Deed.idle_asked reply
  change Served u (.status host) ((u.status host).1.map (.asked host)) (u.status host).2
  unfold status
  cases hhost : u.hosts[host]? with
  | none => exact hidle none
  | some h =>
    obtain ⟨r, session⟩ := h
    cases session with
    | none => exact hidle (some _)
    | some id =>
      cases hs : u.session? id with
      | none =>
        have hgone : u.engine.session? id = none := hs
        simp only [Host.status, status_none hgone]
        exact hidle (some _)
      | some s =>
        have hthere : u.engine.session? id = some s := hs
        simp only [Host.status, status_eq hthere]
        exact .asked (reference_eq hhost) hs

theorem served_send (u : Usage) (host : Nat) (token : String) :
    Served u (.send host token) (u.serve (.send host token)).1 (u.serve (.send host token)).2 := by
  have hidle : ∀ answer : Option (Except String Unit),
      (∀ id ∈ u.reference host, u.session? id = none) →
      Served u (.send host token) (answer.map (.sent host token)) u := by
    intro answer hnone
    refine .idle ?_ rfl ?_ rfl rfl rfl fun _ _ h => h
    · intro d hd
      obtain ⟨reply, -, rfl⟩ := Option.map_eq_some_iff.mp hd
      exact Deed.idle_sent token reply
    · rintro _ _ ⟨⟩
      exact hnone
  change Served u (.send host token) ((u.send host token).1.map (.sent host token))
    (u.send host token).2
  unfold send
  cases hhost : u.hosts[host]? with
  | none => exact hidle none (by simp [reference, hhost])
  | some h =>
    obtain ⟨r, session⟩ := h
    cases session with
    | none => exact hidle (some _) (by simp [reference, hhost])
    | some id =>
      cases hs : u.session? id with
      | none =>
        have hgone : u.engine.session? id = none := hs
        simp only [Host.send, send_none hgone]
        exact hidle (some _) (by simp [reference, hhost, hs])
      | some s =>
        have hthere : u.engine.session? id = some s := hs
        simp only [Host.send, send_eq hthere]
        refine .told hhost hs _ ?_
        rintro rfl
        rw [obey_quitToken]
        split <;> rfl

theorem served_serve (u : Usage) (c : Call) : Served u c (u.serve c).1 (u.serve c).2 := by
  cases c with
  | enter r => exact .entered r
  | wait span =>
    exact .idle (by simp [serve]) rfl (by simp) rfl rfl rfl fun _ _ h => h
  | join host sceneRoles poolSize r id => exact served_beginJoin u host sceneRoles poolSize r id
  | complete i => exact served_complete u i
  | status host => exact served_status u host
  | send host token => exact served_send u host token
  | observe host =>
    refine .idle ?_ rfl (by simp) rfl rfl rfl fun _ _ h => h
    rintro _ ⟨⟩
    exact Deed.idle_observed _

/-! ## Joins that succeed -/

section Successes

variable {u : Usage} {host sceneRoles poolSize i : Nat} {id : SessionId} {r : Role} {s : Session}
  {p : Creation}

theorem serve_founding (hhost : host < u.hosts.length) (hpool : sceneRoles ≤ poolSize)
    (hroles : 0 < sceneRoles) (hnone : u.session? id = none) :
    (u.serve (.join host sceneRoles poolSize .creator id)).2 = { u with
      sceneRoles
      engine := u.engine.setSession id (.ofExpected sceneRoles)
      side := u.side ++ [.creating ⟨host, id, u.now + u.engine.options.creationLatency⟩] } := by
  have hjoin : u.engine.join sceneRoles poolSize .creator id u.now =
      (.creating, u.engine.setSession id (.ofExpected sceneRoles)) := by
    have hgone : u.engine.session? id = none := hnone
    rw [join_creator (r := .creator) hpool hroles rfl, Engine.create, hgone]
  simp only [serve, beginJoin, startJoin, hjoin, if_pos hhost]

theorem serve_admitting (hhost : host < u.hosts.length) (hpool : sceneRoles ≤ poolSize)
    (hr : r.number < sceneRoles) (hrole : r ≠ .creator) (hs : u.session? id = some s)
    (havail : s.available) (hout : s.agent? r = none) :
    (u.serve (.join host sceneRoles poolSize r id)).2 = { u with
      sceneRoles
      engine := u.engine.setSession id (s.enrol r (u.engine.spawn r) u.now)
      hosts := u.hosts.modify host (·.afterJoin id (.ok ())) } := by
  have hjoin : u.engine.join sceneRoles poolSize r id u.now =
      (.answered (.ok ()), u.engine.setSession id (s.enrol r (u.engine.spawn r) u.now)) := by
    rw [join_other hpool hr hrole, attach_admitted hs havail hout]
  simp only [serve, beginJoin, startJoin, hjoin, if_pos hhost]

theorem serve_completing (hp : u.underway i = some p) (hdue : p.due ≤ u.now)
    (hs : u.session? p.session = some s) :
    (u.serve (.complete i)).2 = { u with
      engine := u.engine.setSession p.session
        ({ s with available := true }.enrol .creator (u.engine.spawn .creator) u.now)
      hosts := u.hosts.modify p.host (·.afterJoin p.session (.ok ()))
      side := u.side.set i (.answered (.ok ())) } := by
  have hfinish : u.engine.finishCreation p.session u.now = (.ok (), u.engine.setSession p.session
      ({ s with available := true }.enrol .creator (u.engine.spawn .creator) u.now)) :=
    finishCreation_eq hs
  simp only [serve, complete, hp, if_pos hdue, finish, hfinish]

end Successes

/-! ## What a call leaves alone -/

variable {u u' : Usage} {c : Call} {deed : Option Deed}

theorem Served.now_eq (h : Served u c deed u') : u'.now = u.now + c.span := by
  cases h with
  | idle _ _ _ hnow => exact hnow
  | entered | founded | admitted | completed | asked | told => rfl

theorem Served.now_le (h : Served u c deed u') : u.now ≤ u'.now := by
  rw [h.now_eq]
  exact Nat.le_add_right _ _

theorem Served.roles (h : Served u c deed u') : u'.roles = u.roles ++ c.entrant.toList := by
  unfold Usage.roles
  cases h with
  | idle _ henter _ _ _ hhosts => simp [henter, hhosts]
  | entered r =>
    change (u.hosts ++ [Host.ofRole r]).map Host.role = _
    simp [Host.ofRole, Call.entrant]
  | founded | asked | told => simp [Call.entrant]
  | admitted | completed =>
    dsimp only
    rw [map_role_modify]
    simp [Call.entrant]

theorem Served.engine (h : Served u c deed u') :
    ∃ sessions, u'.engine = { u.engine with sessions } := by
  cases h with
  | idle _ _ _ _ hengine => exact ⟨u.engine.sessions, hengine⟩
  | entered r => exact ⟨u.engine.sessions, rfl⟩
  | founded | admitted | completed | asked | told => exact ⟨_, rfl⟩

theorem after_engine (u : Usage) (calls : List Call) :
    ∃ sessions, (u.after calls).engine = { u.engine with sessions } := by
  induction calls generalizing u with
  | nil => exact ⟨u.engine.sessions, rfl⟩
  | cons c calls ih =>
    obtain ⟨sessions, hserve⟩ := (served_serve u c).engine
    obtain ⟨sessions', hafter⟩ := ih (u.serve c).2
    rw [hserve] at hafter
    exact ⟨sessions', hafter⟩

theorem spawn_after (u : Usage) (calls : List Call) (r : Role) :
    (u.after calls).engine.spawn r = u.engine.spawn r := by
  obtain ⟨sessions, h⟩ := after_engine u calls
  rw [h]
  rfl

theorem moved_after (u : Usage) (calls : List Call) :
    (u.after calls).engine.moved = u.engine.moved := by
  obtain ⟨sessions, h⟩ := after_engine u calls
  rw [h]
  rfl

theorem limit_after (u : Usage) (calls : List Call) : (u.after calls).limit = u.limit := by
  obtain ⟨sessions, h⟩ := after_engine u calls
  unfold limit
  rw [h]

end Usage

end Labyrinth.Engine

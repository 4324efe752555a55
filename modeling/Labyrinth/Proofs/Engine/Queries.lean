import Labyrinth.Proofs.Engine.Running

/-!
# Queries

A session that is over notices it when somebody asks for its status or sends a command. Engines that
differ only in what their sessions have noticed answer alike from then on, so that no query makes a
difference to what comes after it.
-/

namespace Labyrinth.Engine

/-- The call asks for something and is not meant to change anything. -/
def Call.isQuery : Call → Bool
  | .status _ | .observe _ => true
  | _ => false

/-! ## Sessions that have noticed different things -/

namespace Session

variable {s s' : Session} {limit : Option Nat} {now t : Nat}

/-- The sessions are the same once both have checked their time. -/
def Alike (limit : Option Nat) (now : Nat) (s s' : Session) : Prop :=
  s'.checkTime limit now = s.checkTime limit now

theorem alike_checkTime : Alike limit now s (s.checkTime limit now) :=
  checkTime_checkTime (Nat.le_refl now)

namespace Alike

theorem checkTime_eq (h : Alike limit now s s') :
    s'.checkTime limit now = s.checkTime limit now := h

theorem available (h : Alike limit now s s') : s'.available = s.available := by
  have hsame := congrArg Session.available h.checkTime_eq
  exact hsame

theorem agents (h : Alike limit now s s') : s'.agents = s.agents := by
  have hsame := congrArg Session.agents h.checkTime_eq
  exact hsame

theorem begunAt (h : Alike limit now s s') : s'.begunAt = s.begunAt := by
  have hsame := congrArg Session.begunAt h.checkTime_eq
  exact hsame

theorem agent? (h : Alike limit now s s') (r : Role) : s'.agent? r = s.agent? r :=
  congrArg (·.lookup r) h.agents

theorem later (h : Alike limit now s s') (hle : now ≤ t) : Alike limit t s s' := by
  unfold Alike at h ⊢
  rw [← checkTime_checkTime hle, h, checkTime_checkTime hle]

theorem opened (h : Alike limit now s s') :
    Alike limit now { s with available := true } { s' with available := true } := by
  have hsame := congrArg (fun s : Session => { s with available := true }) h.checkTime_eq
  exact hsame

theorem enrol (h : Alike limit now s s') (r : Role) (p : Pose) :
    Alike limit now (s.enrol r p now) (s'.enrol r p now) := by
  obtain ⟨expected, available, agents, begunAt, ended⟩ := s
  obtain ⟨expected', available', agents', begunAt', ended'⟩ := s'
  simp only [Alike, checkTime, mk.injEq] at h
  obtain ⟨rfl, rfl, rfl, rfl, hended⟩ := h
  -- A session that has not begun is not over, and one that has begun stays as it is.
  cases begunAt' with
  | none =>
    have hsame : ended' = ended := by simpa [isOver] using hended
    rw [hsame]
    rfl
  | some b =>
    unfold Alike checkTime
    simp only [Session.enrol, mk.injEq, true_and]
    exact hended

end Alike

end Session

/-! ## Engines that have noticed different things -/

variable {e e' : Engine} {id : SessionId} {s s' : Session} {now t : Nat} {r : Role}

/-- The engines are the same once all sessions have checked their time. -/
structure Alike (now : Nat) (e e' : Engine) : Prop where
  rest : ∃ sessions, e' = { e with sessions }
  session : ∀ id, e.session? id = none ∧ e'.session? id = none ∨
    ∃ s s', e.session? id = some s ∧ e'.session? id = some s' ∧
      Session.Alike e.options.timeLimit now s s'

/-- The request has the same answer from engines that are alike and leaves them alike. -/
def Respects {α : Type} (now : Nat) (request : Engine → α × Engine) : Prop :=
  ∀ e e', Alike now e e' → (request e').1 = (request e).1 ∧ Alike now (request e).2 (request e').2

namespace Alike

theorem refl (now : Nat) (e : Engine) : Alike now e e where
  rest := ⟨e.sessions, rfl⟩
  session id := by
    cases e.session? id with
    | none => exact .inl ⟨rfl, rfl⟩
    | some s => exact .inr ⟨s, s, rfl, rfl, rfl⟩

theorem trans {e'' : Engine} (h : Alike now e e') (h' : Alike now e' e'') : Alike now e e'' where
  rest := by
    obtain ⟨sessions, rfl⟩ := h.rest
    obtain ⟨sessions', rfl⟩ := h'.rest
    exact ⟨sessions', rfl⟩
  session id := by
    obtain ⟨sessions, rfl⟩ := h.rest
    rcases h.session id with ⟨hs, hs'⟩ | ⟨s, s', hs, hs', hsame⟩
    · rcases h'.session id with ⟨-, hs''⟩ | ⟨s₁, -, hs₁, -, -⟩
      · exact .inl ⟨hs, hs''⟩
      · rw [hs'] at hs₁
        cases hs₁
    · rcases h'.session id with ⟨hnone, -⟩ | ⟨s₁, s'', hs₁, hs'', hsame'⟩
      · rw [hs'] at hnone
        cases hnone
      · obtain rfl := Option.some.inj (hs'.symm.trans hs₁)
        exact .inr ⟨s, s'', hs, hs'', Eq.trans hsame' hsame⟩

theorem later (h : Alike now e e') (hle : now ≤ t) : Alike t e e' where
  rest := h.rest
  session id := by
    rcases h.session id with hnone | ⟨s, s', hs, hs', hsame⟩
    · exact .inl hnone
    · exact .inr ⟨s, s', hs, hs', hsame.later hle⟩

theorem options (h : Alike now e e') : e'.options = e.options := by
  obtain ⟨sessions, rfl⟩ := h.rest
  rfl

theorem spawn (h : Alike now e e') : e'.spawn r = e.spawn r := by
  obtain ⟨sessions, rfl⟩ := h.rest
  rfl

theorem moved (h : Alike now e e') : e'.moved = e.moved := by
  obtain ⟨sessions, rfl⟩ := h.rest
  rfl

theorem setSession (h : Alike now e e') (hs : Session.Alike e.options.timeLimit now s s') :
    Alike now (e.setSession id s) (e'.setSession id s') where
  rest := by
    obtain ⟨sessions, rfl⟩ := h.rest
    exact ⟨_, rfl⟩
  session id' := by
    rw [session?_setSession, session?_setSession]
    split
    · exact .inr ⟨s, s', rfl, rfl, hs⟩
    · exact h.session id'

end Alike

theorem respects_create (n : Nat) (id : SessionId) : Respects now (·.create n id) := by
  intro e e' h
  dsimp only
  unfold create
  rcases h.session id with ⟨hs, hs'⟩ | ⟨s, s', hs, hs', -⟩
  · rw [hs, hs']
    exact ⟨rfl, h.setSession rfl⟩
  · rw [hs, hs']
    exact ⟨rfl, h⟩

theorem respects_attach (r : Role) (id : SessionId) : Respects now (·.attach r id now) := by
  intro e e' h
  dsimp only
  unfold attach
  rcases h.session id with ⟨hs, hs'⟩ | ⟨s, s', hs, hs', hsame⟩
  · rw [hs, hs']
    exact ⟨rfl, h⟩
  · rw [hs, hs']
    dsimp only
    rw [hsame.available, hsame.agent?, h.spawn]
    split
    · exact ⟨rfl, h⟩
    · split
      · exact ⟨rfl, h⟩
      · exact ⟨rfl, h.setSession (hsame.enrol r _)⟩

theorem respects_join (n poolSize : Nat) (r : Role) (id : SessionId) :
    Respects now (·.join n poolSize r id now) := by
  intro e e' h
  dsimp only
  unfold join
  split_ifs
  · exact ⟨rfl, h⟩
  · exact ⟨rfl, h⟩
  · exact respects_create n id e e' h
  · obtain ⟨hanswer, hengine⟩ := respects_attach r id e e' h
    exact ⟨congrArg JoinStep.answered hanswer, hengine⟩

theorem respects_finishCreation (id : SessionId) : Respects now (·.finishCreation id now) := by
  intro e e' h
  dsimp only
  unfold finishCreation
  rcases h.session id with ⟨hs, hs'⟩ | ⟨s, s', hs, hs', hsame⟩
  · rw [hs, hs']
    exact ⟨rfl, h⟩
  · rw [hs, hs']
    dsimp only
    rw [h.spawn]
    exact ⟨rfl, h.setSession (hsame.opened.enrol .creator _)⟩

theorem respects_status (id : SessionId) : Respects now (·.status id now) := by
  intro e e' h
  dsimp only
  rcases h.session id with ⟨hs, hs'⟩ | ⟨s, s', hs, hs', hsame⟩
  · rw [status_none hs, status_none hs']
    exact ⟨rfl, h⟩
  · rw [status_eq hs, status_eq hs', h.options]
    rw [hsame.begunAt, hsame.checkTime_eq]
    exact ⟨rfl, h.setSession rfl⟩

theorem respects_send (r : Role) (id : SessionId) (token : String) :
    Respects now (·.send r id token now) := by
  intro e e' h
  dsimp only
  rcases h.session id with ⟨hs, hs'⟩ | ⟨s, s', hs, hs', hsame⟩
  · rw [send_none hs, send_none hs']
    exact ⟨rfl, h⟩
  · have hobey : e'.obey = e.obey := by
      unfold obey
      rw [h.moved]
    rw [send_eq hs, send_eq hs']
    unfold told
    rw [h.options, hobey, hsame.checkTime_eq]
    exact ⟨rfl, h.setSession rfl⟩

theorem Alike.observe (h : Alike now e e') : e'.observe r id = e.observe r id := by
  unfold Engine.observe
  rcases h.session id with ⟨hs, hs'⟩ | ⟨s, s', hs, hs', hsame⟩
  · rw [hs, hs']
  · rw [hs, hs']
    simp only [Option.bind_eq_bind, Option.bind_some, hsame.agent?, hsame.agents]

/-! ## The calls -/

namespace Usage

variable {u u' : Usage} {c : Call} {calls : List Call}

structure Alike (u u' : Usage) : Prop where
  now : u'.now = u.now
  hosts : u'.hosts = u.hosts
  side : u'.side = u.side
  engine : Engine.Alike u.now u.engine u'.engine

theorem Alike.trans {u'' : Usage} (h : Alike u u') (h' : Alike u' u'') : Alike u u'' where
  now := h'.now.trans h.now
  hosts := h'.hosts.trans h.hosts
  side := h'.side.trans h.side
  engine := by
    have hengine := h'.engine
    rw [h.now] at hengine
    exact h.engine.trans hengine

theorem Alike.pose? (h : Alike u u') : u'.pose? id r = u.pose? id r := by
  unfold Usage.pose? Usage.session?
  rcases h.engine.session id with ⟨hs, hs'⟩ | ⟨s, s', hs, hs', hsame⟩
  · rw [hs, hs']
  · rw [hs, hs']
    exact hsame.agent? r

theorem Alike.beginJoin (h : Alike u u') (host n poolSize : Nat) (r : Role) (id : SessionId) :
    (u'.beginJoin host n poolSize r id).1 = (u.beginJoin host n poolSize r id).1 ∧
      Alike (u.beginJoin host n poolSize r id).2 (u'.beginJoin host n poolSize r id).2 := by
  obtain ⟨now, e, hosts, _, side⟩ := u
  obtain ⟨now', e', hosts', _, side'⟩ := u'
  obtain ⟨hnow, hhosts, hside, hengine⟩ := h
  dsimp only at hnow hhosts hside hengine
  subst hnow hhosts hside
  obtain ⟨hstep, hafter⟩ := respects_join n poolSize r id e e' hengine
  dsimp only at hstep hafter
  unfold Usage.beginJoin startJoin
  dsimp only
  split
  · cases hjoin : e.join n poolSize r id now' with
    | mk step e₁ =>
      cases hjoin' : e'.join n poolSize r id now' with
      | mk step' e₁' =>
        rw [hjoin, hjoin'] at hstep hafter
        dsimp only at hstep hafter
        subst hstep
        cases step' with
        | answered a => exact ⟨rfl, rfl, rfl, rfl, hafter⟩
        | creating =>
          dsimp only
          rw [hengine.options]
          exact ⟨rfl, rfl, rfl, rfl, hafter⟩
  · exact ⟨rfl, rfl, rfl, rfl, hengine⟩

theorem Alike.completion (h : Alike u u') (i : Nat) :
    (u'.complete i).1 = (u.complete i).1 ∧ Alike (u.complete i).2 (u'.complete i).2 := by
  obtain ⟨now, e, hosts, _, side⟩ := u
  obtain ⟨now', e', hosts', _, side'⟩ := u'
  obtain ⟨hnow, hhosts, hside, hengine⟩ := h
  dsimp only at hnow hhosts hside hengine
  subst hnow hhosts hside
  unfold Usage.complete underway
  dsimp only
  cases side'[i]? >>= Joining.creation? with
  | none => exact ⟨rfl, rfl, rfl, rfl, hengine⟩
  | some p =>
    dsimp only
    split
    · obtain ⟨hanswer, hafter⟩ := respects_finishCreation p.session e e' hengine
      unfold finish
      dsimp only at hanswer hafter ⊢
      rw [hanswer]
      exact ⟨rfl, rfl, rfl, rfl, hafter⟩
    · exact ⟨rfl, rfl, rfl, rfl, hengine⟩

theorem Alike.status (h : Alike u u') (host : Nat) :
    (u'.status host).1 = (u.status host).1 ∧ Alike (u.status host).2 (u'.status host).2 := by
  have hleft := h
  obtain ⟨hnow, hhosts, hside, hengine⟩ := h
  unfold Usage.status
  rw [hhosts, hnow]
  cases u.hosts[host]? with
  | none => exact ⟨rfl, hleft⟩
  | some host =>
    dsimp only
    unfold Host.status
    cases host.session with
    | none => exact ⟨rfl, rfl, rfl, hside, hengine⟩
    | some id =>
      obtain ⟨hanswer, hafter⟩ := respects_status id _ _ hengine
      exact ⟨congrArg some hanswer, rfl, rfl, hside, hafter⟩

theorem Alike.send (h : Alike u u') (host : Nat) (token : String) :
    (u'.send host token).1 = (u.send host token).1 ∧
      Alike (u.send host token).2 (u'.send host token).2 := by
  have hleft := h
  obtain ⟨hnow, hhosts, hside, hengine⟩ := h
  unfold Usage.send
  rw [hhosts, hnow]
  cases u.hosts[host]? with
  | none => exact ⟨rfl, hleft⟩
  | some host =>
    dsimp only
    unfold Host.send
    cases host.session with
    | none => exact ⟨rfl, rfl, rfl, hside, hengine⟩
    | some id =>
      obtain ⟨hanswer, hafter⟩ := respects_send host.role id token _ _ hengine
      exact ⟨congrArg some hanswer, rfl, rfl, hside, hafter⟩

theorem Alike.observe (h : Alike u u') (host : Nat) : u'.observe host = u.observe host := by
  unfold Usage.observe Host.observe
  rw [h.hosts]
  have hsame : ∀ r id, u'.engine.observe r id = u.engine.observe r id := by
    intro r id
    exact h.engine.observe
  have hview : ∀ r, u'.engine.observe r = u.engine.observe r := fun r => funext (hsame r)
  simp only [hview]

theorem Alike.serve (h : Alike u u') (c : Call) :
    (u'.serve c).1 = (u.serve c).1 ∧ Alike (u.serve c).2 (u'.serve c).2 := by
  cases c with
  | enter r => exact ⟨rfl, h.now, congrArg (· ++ [Host.ofRole r]) h.hosts, h.side, h.engine⟩
  | wait span =>
    exact ⟨rfl, congrArg (· + span) h.now, h.hosts, h.side,
      h.engine.later (Nat.le_add_right _ _)⟩
  | join host n poolSize r id => exact h.beginJoin host n poolSize r id
  | complete i => exact h.completion i
  | status host =>
    obtain ⟨hanswer, hafter⟩ := h.status host
    exact ⟨congrArg (·.map (Deed.asked host)) hanswer, hafter⟩
  | send host token =>
    obtain ⟨hanswer, hafter⟩ := h.send host token
    exact ⟨congrArg (·.map (Deed.sent host token)) hanswer, hafter⟩
  | observe host =>
    exact ⟨congrArg (fun seen => some (Deed.observed host seen)) (h.observe host), h⟩

/-! ## Calls that make no difference -/

theorem alike_query (h : c.isQuery) : Alike u (u.serve c).2 := by
  have hrefl : Alike u u := ⟨rfl, rfl, rfl, .refl _ _⟩
  cases c with
  | observe host => exact hrefl
  | status host =>
    change Alike u (u.status host).2
    unfold Usage.status
    cases u.hosts[host]? with
    | none => exact hrefl
    | some host =>
      dsimp only
      unfold Host.status
      cases host.session with
      | none => exact hrefl
      | some id =>
        cases hs : u.engine.session? id with
        | none =>
          simp only [status_none hs]
          exact hrefl
        | some s =>
          simp only [status_eq hs]
          refine ⟨rfl, rfl, rfl, ⟨_, rfl⟩, ?_⟩
          intro id'
          rw [session?_setSession]
          split
          · rename_i hid
            subst hid
            exact .inr ⟨s, _, hs, rfl, Session.alike_checkTime⟩
          · exact (Engine.Alike.refl u.now u.engine).session id'
  | _ => cases h

/-- The calls that are kept, of calls some of which are put in. -/
def kept (calls : List (Call × Bool)) : List Call := (calls.filter Prod.snd).map Prod.fst

/-- What is logged of the calls that are kept, while all of them are made. -/
def keptLog (u : Usage) : List (Call × Bool) → List Entry
  | [] => []
  | (c, true) :: calls => ⟨u.now, c, (u.serve c).1⟩ :: (u.serve c).2.keptLog calls
  | (c, false) :: calls => (u.serve c).2.keptLog calls

/-- Queries that are put in change nothing of what the other calls are answered. -/
theorem Alike.kept {calls : List (Call × Bool)} (h : Alike u u')
    (hquery : ∀ c, (c, false) ∈ calls → c.isQuery) :
    u'.keptLog calls = u.log (kept calls) ∧
      Alike (u.after (kept calls)) (u'.after (calls.map Prod.fst)) := by
  induction calls generalizing u u' with
  | nil => exact ⟨rfl, h⟩
  | cons mark calls ih =>
    have hlater : ∀ c, (c, false) ∈ calls → c.isQuery := fun c hc =>
      hquery c (List.mem_cons_of_mem _ hc)
    obtain ⟨c, keep⟩ := mark
    obtain ⟨hdeed, hserve⟩ := h.serve c
    cases keep with
    | true =>
      obtain ⟨hlog, hafter⟩ := ih hserve hlater
      refine ⟨?_, hafter⟩
      change _ :: (u'.serve c).2.keptLog calls = _ :: (u.serve c).2.log (Usage.kept calls)
      rw [h.now, hdeed, hlog]
    | false =>
      have hsame : Alike u' (u'.serve c).2 := alike_query (hquery c List.mem_cons_self)
      exact ih (h.trans hsame) hlater

end Usage

end Labyrinth.Engine

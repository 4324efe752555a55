import Labyrinth.Proofs.Timeline.Lockstep
import Labyrinth.Proofs.Timeline.World

/-!
# Rooms

When all hosts belong to one engine and all roles refer to one session, that session is all that the
roles can notice of the world. A room is a world that consists of it alone, and the whole world
keeps in lockstep with it.
-/

namespace Labyrinth

open Coordinator Engine

namespace Room

variable (e : Engine)

/-- The session, if the role is in it. -/
def joined (session? : Option Session) (r : Role) : Option Session :=
  session?.filter fun s => (s.agent? r).isSome

theorem joined_cases (session? : Option Session) (r : Role) :
    joined session? r = none ∧ World.agent? session? r = none ∨
      ∃ s, session? = some s ∧ (s.agent? r).isSome ∧ joined session? r = some s := by
  cases session? with
  | none => exact .inl ⟨rfl, rfl⟩
  | some s =>
    by_cases hin : (s.agent? r).isSome
    · exact .inr ⟨s, rfl, hin, Option.filter_some_pos hin⟩
    · exact .inl ⟨Option.filter_some_neg (Bool.eq_false_iff.mpr hin),
        Option.not_isSome_iff_eq_none.mp hin⟩

def attach (b : Brief) (now : Nat) (session? : Option Session) :
    Except JoinError Unit × Option Session :=
  match session? with
  | none => (.error (.notYetAvailable b.session.text), none)
  | some s =>
    if !s.available then (.error (.notYetAvailable b.session.text), some s)
    else if (s.agent? b.role).isSome then
      (.error (.conflict (b.session.text ++ " (role " ++ b.role.text ++ " already joined)")), some s)
    else (.ok (), some (s.enrol b.role (e.spawn b.role) now))

def join (b : Brief) (now : Nat) (session? : Option Session) :
    Reply World.Pending × Option Session :=
  if b.pool.size < b.sceneRoles then (.event (.joined (.error .noFreeClient)), session?)
  else if b.sceneRoles ≤ b.role.number then
    (.event (.joined (.error (.invalidDescriptor ("no agent section for role " ++ b.role.text)))),
      session?)
  else if b.role.isCreator then
    match session? with
    | some s => (.event (.joined (.error (.conflict b.session.text))), some s)
    | none => (.later e.options.creationLatency (.creation b.session),
        some (.ofExpected b.sceneRoles))
  else (.event (.joined (attach e b now session?).1), (attach e b now session?).2)

def status (b : Brief) (now : Nat) (session? : Option Session) : Event × Option Session :=
  match joined session? b.role with
  | none => (.status (.error (Host.ofRole b.role).notJoined), session?)
  | some s =>
    let s := s.checkTime e.options.timeLimit now
    (.status (.ok ⟨s.begunAt.isSome, s.isRunning⟩), some s)

def send (b : Brief) (token : String) (now : Nat) (session? : Option Session) :
    Event × Option Session :=
  match joined session? b.role with
  | none => (.sent (.error (Host.ofRole b.role).notJoined), session?)
  | some s =>
    let s := s.checkTime e.options.timeLimit now
    if s.isRunning then
      (.sent (e.obey s b.role b.session token).1, some (e.obey s b.role b.session token).2)
    else (.sent (.ok ()), some s)

/-- What the role sees of the session, as an engine shows it that holds nothing else. -/
def observe (b : Brief) (session? : Option Session) : Option Observation :=
  session?.bind fun s =>
    ({ e with sessions := ∅ }.setSession b.session s).observe b.role b.session

def take (network : Network) (b : Brief) (request : Request) (now : Nat)
    (session? : Option Session) : Reply World.Pending × Option Session :=
  match request with
  | .probe endpoint limit => (network.probe b.role endpoint limit now, session?)
  | .publish _ => (.event .published, session?)
  | .join => join e b now session?
  | .status => (.event (status e b now session?).1, (status e b now session?).2)
  | .send token => (.event (send e b token now session?).1, (send e b token now session?).2)
  | .observe => (.event (.observed (observe e b session?)), session?)
  | .nap _ => (.crash, session?)

def settle (_ : Brief) (p : World.Pending) (now : Nat) (session? : Option Session) :
    Option Event × Option Session :=
  match p, session? with
  | .tell answer, _ => (answer, session?)
  | .creation id, none =>
    (some (.joined (.error (.transport ("session '" ++ id.text ++ "' vanished during creation")))),
      none)
  | .creation _, some s =>
    (some (.joined (.ok ())),
      some ({ s with available := true }.enrol .creator (e.spawn .creator) now))

def surroundings (network : Network) : Surroundings (Option Session) World.Pending :=
  ⟨take e network, settle e⟩

end Room

/-! ## The world of a room -/

namespace World

variable {w : World} {e : Engine} {network : Network} {id : SessionId} {n now : Nat}
  {session? : Option Session} {b : Brief}

/-- The brief of one of `n` roles that refer to a session. -/
def Refers (id : SessionId) (n : Nat) (b : Brief) : Prop := b.session = id ∧ b.role.number < n

/-- Only the creation of the session is kept pending, for its creator. -/
def Creates (b : Brief) (p : Pending) : Prop := p = .creation b.session ∧ b.role = .creator

theorem observe_congr {e e' : Engine} {r : Role} (h : e.session? id = e'.session? id) :
    e.observe r id = e'.observe r id := by
  unfold Engine.observe
  rw [h]

namespace Houses

variable (h : w.Houses e network id n session?) (hb : Refers id n b)

include h hb

theorem host_eq : w.host? b.role = some (.engine ⟨b.role, reference session? b.session b.role⟩) :=
  hb.1 ▸ h.host b.role hb.2

theorem take_answered {a : Except JoinError Unit} {engine : Engine}
    (hjoin : w.engine.join b.sceneRoles b.pool.size b.role b.session now = (.answered a, engine)) :
    take b .join now w = (.event (.joined a), { w with engine }.setHost b.role (.engine
      (Host.afterJoin ⟨b.role, reference session? b.session b.role⟩ b.session a))) := by
  simp only [take, h.host_eq hb, takeEngine, hjoin, answerJoin]

theorem take_refused {error : JoinError}
    (hjoin : w.engine.join b.sceneRoles b.pool.size b.role b.session now =
      (.answered (.error error), w.engine)) :
    (take b .join now w).1 = .event (.joined (.error error)) ∧
      (take b .join now w).2.Houses e network id n session? := by
  rw [h.take_answered hb hjoin, hb.1]
  exact ⟨rfl, h.setHost_same hb.2⟩

theorem take_attach {s : Session} (hsession : session? = some s) (hout : s.agent? b.role = none)
    (hjoin : w.engine.join b.sceneRoles b.pool.size b.role b.session now =
      (.answered (.ok ()),
        w.engine.setSession b.session (s.enrol b.role (w.engine.spawn b.role) now))) :
    (take b .join now w).1 = .event (.joined (.ok ())) ∧
      (take b .join now w).2.Houses e network id n (some (s.enrol b.role (e.spawn b.role) now)) := by
  obtain ⟨sessions, heng⟩ := h.engine
  have hspawn : w.engine.spawn b.role = e.spawn b.role := by rw [heng]; rfl
  have hnone : reference session? b.session b.role = none := by
    rw [hsession, reference, agent?, Option.bind_some, hout]
    rfl
  rw [h.take_answered hb hjoin, hnone, hspawn, hb.1]
  refine ⟨rfl, h.join hb.2 fun r' => ?_⟩
  rw [Session.isSome_agent?_enrol, hsession]
  rfl

theorem take_create (hsession : session? = none)
    (hjoin : w.engine.join b.sceneRoles b.pool.size b.role b.session now =
      (.creating, w.engine.setSession b.session (.ofExpected b.sceneRoles))) :
    (take b .join now w).1 = .later e.options.creationLatency (.creation b.session) ∧
      (take b .join now w).2.Houses e network id n (some (.ofExpected b.sceneRoles)) := by
  obtain ⟨sessions, heng⟩ := h.engine
  have htake : take b .join now w = (.later w.engine.options.creationLatency (.creation b.session),
      { w with engine := w.engine.setSession b.session (.ofExpected b.sceneRoles) }) := by
    simp only [take, h.host_eq hb, takeEngine, hjoin]
  rw [htake, hb.1, heng]
  exact ⟨rfl, heng ▸ h.setSession fun r => by rw [hsession]; rfl⟩

theorem take_join :
    (take b .join now w).1 = (Room.join e b now session?).1 ∧
      (take b .join now w).2.Houses e network id n (Room.join e b now session?).2 := by
  have hsession : w.engine.session? b.session = session? := hb.1 ▸ h.session
  unfold Room.join
  by_cases hpool : b.pool.size < b.sceneRoles
  · rw [if_pos hpool]
    exact h.take_refused hb (by rw [Engine.join, if_pos hpool])
  by_cases hscene : b.sceneRoles ≤ b.role.number
  · rw [if_neg hpool, if_pos hscene]
    exact h.take_refused hb (by rw [Engine.join, if_neg hpool, if_pos hscene])
  rw [if_neg hpool, if_neg hscene]
  by_cases hrole : b.role.isCreator
  · rw [if_pos hrole]
    have hjoin : w.engine.join b.sceneRoles b.pool.size b.role b.session now =
        w.engine.create b.sceneRoles b.session := by
      rw [Engine.join, if_neg hpool, if_neg hscene, if_pos hrole]
    rw [Engine.create, hsession] at hjoin
    cases session? with
    | none => exact h.take_create hb rfl hjoin
    | some s => exact h.take_refused hb hjoin
  · rw [if_neg hrole]
    have hjoin : w.engine.join b.sceneRoles b.pool.size b.role b.session now =
        (.answered (w.engine.attach b.role b.session now).1,
          (w.engine.attach b.role b.session now).2) := by
      rw [Engine.join, if_neg hpool, if_neg hscene, if_neg hrole]
    rw [Engine.attach, hsession] at hjoin
    cases session? with
    | none => exact h.take_refused hb hjoin
    | some s =>
      unfold Room.attach
      dsimp only at hjoin ⊢
      by_cases havail : s.available
      · simp only [havail, Bool.not_true, Bool.false_eq_true, if_false] at hjoin ⊢
        by_cases hin : (s.agent? b.role).isSome
        · simp only [hin, if_true] at hjoin ⊢
          exact h.take_refused hb hjoin
        · simp only [hin, Bool.false_eq_true, if_false] at hjoin ⊢
          exact h.take_attach hb rfl (Option.not_isSome_iff_eq_none.mp hin) hjoin
      · simp only [havail, Bool.not_false, if_true] at hjoin ⊢
        exact h.take_refused hb hjoin

omit hb in
theorem joined_eq : (reference session? b.session b.role = none ∧
      Room.joined session? b.role = none) ∨
    ∃ s, session? = some s ∧ (s.agent? b.role).isSome ∧
      reference session? b.session b.role = some b.session ∧
      Room.joined session? b.role = some s := by
  rcases Room.joined_cases session? b.role with ⟨hjoined, hout⟩ | ⟨s, rfl, hin, hjoined⟩
  · exact .inl ⟨if_neg (by simp [hout]), hjoined⟩
  · exact .inr ⟨s, rfl, hin, if_pos hin, hjoined⟩

theorem take_status :
    (take b .status now w).1 = .event (Room.status e b now session?).1 ∧
      (take b .status now w).2.Houses e network id n (Room.status e b now session?).2 := by
  have hb' := hb
  obtain ⟨rfl, -⟩ := hb'
  have hsession : w.engine.session? b.session = session? := h.session
  have hlimit : w.engine.options.timeLimit = e.options.timeLimit := by
    obtain ⟨sessions, heng⟩ := h.engine
    rw [heng]
  unfold Room.status
  simp only [take, h.host_eq hb, takeEngine, Host.status]
  rcases h.joined_eq (b := b) with ⟨hreference, hjoined⟩ | ⟨s, rfl, -, hreference, hjoined⟩
  · simp only [hreference, hjoined]
    exact ⟨rfl, h⟩
  · simp only [hreference, hjoined, Engine.status, current, hsession, hlimit]
    exact ⟨trivial, h.setSession fun _ => rfl⟩

theorem take_send (token : String) :
    (take b (.send token) now w).1 = .event (Room.send e b token now session?).1 ∧
      (take b (.send token) now w).2.Houses e network id n (Room.send e b token now session?).2 := by
  have hb' := hb
  obtain ⟨rfl, -⟩ := hb'
  have hsession : w.engine.session? b.session = session? := h.session
  have hlimit : w.engine.options.timeLimit = e.options.timeLimit := by
    obtain ⟨sessions, heng⟩ := h.engine
    rw [heng]
  have hobey : ∀ s, w.engine.obey s b.role b.session token = e.obey s b.role b.session token := by
    obtain ⟨sessions, heng⟩ := h.engine
    intro s
    rw [heng]
    rfl
  unfold Room.send
  simp only [take, h.host_eq hb, takeEngine, Host.send]
  rcases h.joined_eq (b := b) with ⟨hreference, hjoined⟩ | ⟨s, rfl, -, hreference, hjoined⟩
  · simp only [hreference, hjoined]
    exact ⟨rfl, h⟩
  · simp only [hreference, hjoined, Engine.send, current, hsession, hlimit, hobey]
    split
    · exact ⟨rfl, h.setSession fun _ => isSome_agent?_obey⟩
    · exact ⟨rfl, h.setSession fun _ => rfl⟩

theorem take_observe :
    (take b .observe now w).1 = .event (.observed (Room.observe e b session?)) ∧
      (take b .observe now w).2.Houses e network id n session? := by
  have hsession : w.engine.session? b.session = session? := hb.1 ▸ h.session
  simp only [take, h.host_eq hb, takeEngine, Host.observe, Room.observe]
  refine ⟨?_, h⟩
  cases session? with
  | none => rfl
  | some s =>
    have hview : w.engine.session? b.session =
        ({ e with sessions := ∅ }.setSession b.session s).session? b.session := by
      rw [hsession, session?_setSession_self]
    by_cases hin : (s.agent? b.role).isSome
    · have hreference : reference (some s) b.session b.role = some b.session := if_pos hin
      rw [hreference]
      exact congrArg (Reply.event ∘ Event.observed) (observe_congr hview)
    · have hreference : reference (some s) b.session b.role = none := if_neg hin
      rw [hreference]
      simp only [Option.bind_some, Engine.observe, session?_setSession_self,
        Option.bind_eq_bind, Option.not_isSome_iff_eq_none.mp hin, Option.bind_none]

end Houses

/-- A world in which engine hosts share a session keeps in lockstep with the room of that session. -/
theorem mimics_room (e : Engine) (network : Network) (id : SessionId) (n : Nat) :
    Mimics World.surroundings (Room.surroundings e network)
      (fun w session? => w.Houses e network id n session?) (Refers id n) Creates where
  take now {b request w session?} h hb hnap := by
    cases request with
    | probe endpoint limit =>
      refine ⟨?_, h⟩
      simp only [World.surroundings, World.take, h.network, Room.surroundings, Room.take]
    | publish snapshot => exact ⟨rfl, h.network, h.engine, h.session, h.host⟩
    | join => exact h.take_join hb
    | status => exact h.take_status hb
    | send token => exact h.take_send hb token
    | observe => exact h.take_observe hb
    | nap span => exact absurd rfl (hnap span)
  fits {b request now session? span p} hb hlater := by
    cases request with
    | join =>
      change (Room.join e b now session?).1 = _ at hlater
      unfold Room.join at hlater
      split at hlater
      · cases hlater
      · split at hlater
        · cases hlater
        · split at hlater
          · rename_i hrole
            cases session? with
            | some s => cases hlater
            | none =>
              cases hlater
              refine ⟨rfl, congrArg Role.mk (of_decide_eq_true hrole)⟩
          · cases hlater
    | probe | publish | status | send | observe | nap => cases hlater
  settle now {b p w session?} h hb hp := by
    obtain ⟨rfl, hrole⟩ := hp
    obtain ⟨rfl, hr⟩ := hb
    have hsession : w.engine.session? b.session = session? := h.session
    have hspawn : w.engine.spawn .creator = e.spawn .creator := by
      obtain ⟨sessions, heng⟩ := h.engine
      rw [heng]
      rfl
    have hhost := h.host b.role hr
    cases session? with
    | none =>
      simp only [World.surroundings, settle, finishCreation, hsession, host?] at hhost ⊢
      rw [hhost]
      exact ⟨rfl, h.setHost_same hr⟩
    | some s =>
      simp only [World.surroundings, settle, finishCreation, hsession, hspawn, host?] at hhost ⊢
      rw [hhost]
      have hreference : (reference (some s) b.session b.role <|> some b.session) =
          some b.session := by
        unfold reference
        split <;> rfl
      have hjoin := h.join (s := { s with available := true }.enrol .creator (e.spawn .creator) now)
        hr fun r' => by
          rw [Session.isSome_agent?_enrol, hrole]
          rfl
      rw [← hreference] at hjoin
      exact ⟨rfl, hjoin⟩

end World

end Labyrinth

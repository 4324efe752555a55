import Labyrinth.Timeline.World
import Labyrinth.Proofs.Engine.Requests

/-!
# The world of one session

What the requests of engine hosts that share one session do to that session, and how they are
answered.
-/

namespace Labyrinth

open Coordinator Engine

namespace World

variable {w : World} {e : Engine} {network : Network} {id : SessionId} {n now : Nat}
  {session? : Option Session} {s : Session} {b : Brief} {r r' : Role}

theorem host?_setHost {h : Host} :
    (w.setHost r h).host? r' = if r' = r then (w.host? r).map fun _ => h else w.host? r' :=
  Role.lookup_replace

/-! ## Worlds that share a session -/

def agent? (session? : Option Session) (r : Role) : Option Pose := session?.bind (·.agent? r)

def reference (session? : Option Session) (id : SessionId) (r : Role) : Option SessionId :=
  if (agent? session? r).isSome then some id else none

/-- The world has an engine like `e`, which holds the given session, and hosts for `n` roles, which
refer to that session once they are in it. -/
structure Houses (w : World) (e : Engine) (network : Network) (id : SessionId) (n : Nat)
    (session? : Option Session) : Prop where
  network : w.network = network
  engine : ∃ sessions, w.engine = { e with sessions }
  session : w.engine.session? id = session?
  host : ∀ r : Role, r.number < n → w.host? r = some (.engine ⟨r, reference session? id r⟩)

namespace Houses

variable (h : w.Houses e network id n session?)

include h

theorem setSession (hagents : ∀ r, (s.agent? r).isSome = (agent? session? r).isSome) :
    { w with engine := w.engine.setSession id s }.Houses e network id n (some s) where
  network := h.network
  engine := by
    obtain ⟨sessions, heng⟩ := h.engine
    exact ⟨_, by rw [heng]; rfl⟩
  session := session?_setSession_self
  host r hr := by
    have := h.host r hr
    simp only [reference, agent?, Option.bind_some, hagents] at this ⊢
    exact this

theorem join (hr : r.number < n)
    (hagents : ∀ r', (s.agent? r').isSome ↔ r' = r ∨ (agent? session? r').isSome) :
    ({ w with engine := w.engine.setSession id s }.setHost r (.engine ⟨r, some id⟩)).Houses
      e network id n (some s) where
  network := h.network
  engine := by
    obtain ⟨sessions, heng⟩ := h.engine
    exact ⟨_, by rw [setHost, heng]; rfl⟩
  session := session?_setSession_self
  host r' hr' := by
    rw [host?_setHost]
    split
    · subst r'
      have hin : (agent? (some s) r).isSome := (hagents r).mpr (.inl rfl)
      rw [reference, if_pos hin]
      exact congrArg (Option.map _) (h.host r hr)
    · rename_i hne
      have hsame : (agent? (some s) r').isSome ↔ (agent? session? r').isSome := by
        rw [agent?, Option.bind_some, hagents, or_iff_right hne]
      simp only [reference, hsame]
      exact h.host r' hr'

theorem setHost_same (hr : r.number < n) :
    (w.setHost r (.engine ⟨r, reference session? id r⟩)).Houses e network id n session? where
  network := h.network
  engine := h.engine
  session := h.session
  host r' hr' := by
    rw [host?_setHost]
    split
    · subst r'
      rw [h.host r hr]
      rfl
    · exact h.host r' hr'

end Houses

/-- The world has an engine like `e` and hosts for `n` roles, which share the given session. -/
structure Shares (w : World) (e : Engine) (id : SessionId) (n : Nat) (session? : Option Session) :
    Prop where
  engine : ∃ sessions, w.engine = { e with sessions }
  session : w.engine.session? id = session?
  host : ∀ r : Role, r.number < n → w.host? r = some (.engine ⟨r, reference session? id r⟩)
  sound : ∀ s ∈ session?, s.Sound n

namespace Shares

variable (h : w.Shares e id n session?)

include h

theorem houses : w.Houses e w.network id n session? := ⟨rfl, h.engine, h.session, h.host⟩

theorem setSession (hs : s.Sound n)
    (hagents : ∀ r, (s.agent? r).isSome = (agent? session? r).isSome) :
    { w with engine := w.engine.setSession id s }.Shares e id n (some s) :=
  have hhouses := h.houses.setSession hagents
  ⟨hhouses.engine, hhouses.session, hhouses.host, by rintro _ ⟨⟩; exact hs⟩

theorem join (hs : s.Sound n) (hr : r.number < n)
    (hagents : ∀ r', (s.agent? r').isSome ↔ r' = r ∨ (agent? session? r').isSome) :
    ({ w with engine := w.engine.setSession id s }.setHost r (.engine ⟨r, some id⟩)).Shares
      e id n (some s) :=
  have hhouses := h.houses.join hr hagents
  ⟨hhouses.engine, hhouses.session, hhouses.host, by rintro _ ⟨⟩; exact hs⟩

theorem setHost_same (hr : r.number < n) :
    (w.setHost r (.engine ⟨r, reference session? id r⟩)).Shares e id n session? :=
  have hhouses := h.houses.setHost_same hr
  ⟨hhouses.engine, hhouses.session, hhouses.host, h.sound⟩

end Shares

/-! ## Requests -/

section Requests

variable (now) (h : w.Shares e id n session?) (hid : b.session = id) (hr : b.role.number < n)

include h hid hr

theorem take_create (hscene : b.sceneRoles = n) (hpool : n ≤ b.pool.size)
    (hrole : b.role = .creator) (hnone : session? = none) :
    ∃ w', take b .join now w = (.later e.options.creationLatency (.creation id), w') ∧
      w'.Shares e id n (some (.ofExpected n)) := by
  subst hid hnone
  obtain ⟨sessions, heng⟩ := h.engine
  have hjoin : w.engine.join b.sceneRoles b.pool.size b.role b.session now =
      (.creating, w.engine.setSession b.session (.ofExpected n)) := by
    rw [hscene, join_creator hpool hr hrole, create, h.session]
  refine ⟨_, ?_, h.setSession (.ofExpected (Nat.zero_lt_of_lt hr)) fun _ => rfl⟩
  simp only [take, h.host b.role hr, takeEngine, hjoin]
  rw [heng]

theorem take_join_refused (hscene : b.sceneRoles = n) (hpool : n ≤ b.pool.size)
    (hrole : b.role ≠ .creator) (havail : ∀ s ∈ session?, s.available = false) :
    ∃ w', take b .join now w = (.event (.joined (.error (.notYetAvailable id.text))), w') ∧
      w'.Shares e id n session? := by
  subst hid
  have hjoin : w.engine.join b.sceneRoles b.pool.size b.role b.session now =
      (.answered (.error (.notYetAvailable b.session.text)), w.engine) := by
    rw [hscene, join_other hpool hr hrole, attach_refused (h.session ▸ havail)]
  refine ⟨_, ?_, h.setHost_same hr⟩
  simp only [take, h.host b.role hr, takeEngine, hjoin]
  rfl

theorem take_join_admitted (hscene : b.sceneRoles = n) (hpool : n ≤ b.pool.size)
    (hrole : b.role ≠ .creator) (hsome : session? = some s) (havail : s.available)
    (hout : s.agent? b.role = none) :
    ∃ w', take b .join now w = (.event (.joined (.ok ())), w') ∧
      w'.Shares e id n (some (s.enrol b.role (e.spawn b.role) now)) := by
  subst hid hsome
  obtain ⟨sessions, heng⟩ := h.engine
  have hjoin : w.engine.join b.sceneRoles b.pool.size b.role b.session now =
      (.answered (.ok ()),
        w.engine.setSession b.session (s.enrol b.role (e.spawn b.role) now)) := by
    have hspawn : w.engine.spawn b.role = e.spawn b.role := by rw [heng]; rfl
    rw [hscene, join_other hpool hr hrole, attach_admitted h.session havail hout, hspawn]
  have hself : { s with available := true } = s := by rw [← havail]
  have hsound : (s.enrol b.role (e.spawn b.role) now).Sound n :=
    hself ▸ (h.sound s rfl).enrol hout hr (.inl havail)
  refine ⟨_, ?_, h.join hsound hr fun r' => ?_⟩
  · simp only [take, h.host b.role hr, takeEngine, hjoin]
    simp [answerJoin, Host.afterJoin, reference, agent?, hout]
  · rw [Session.isSome_agent?_enrol]
    rfl

theorem settle_creation (hrole : b.role = .creator) (hsome : session? = some s)
    (hout : s.agent? .creator = none) :
    ∃ w', settle b (.creation id) now w = (some (.joined (.ok ())), w') ∧
      w'.Shares e id n
        (some ({ s with available := true }.enrol .creator (e.spawn .creator) now)) := by
  subst hid hsome
  obtain ⟨sessions, heng⟩ := h.engine
  have hfinish : w.engine.finishCreation b.session now = (.ok (), w.engine.setSession b.session
      ({ s with available := true }.enrol .creator (e.spawn .creator) now)) := by
    have hspawn : w.engine.spawn .creator = e.spawn .creator := by rw [heng]; rfl
    simp only [finishCreation, h.session, hspawn]
  have hsound : ({ s with available := true }.enrol .creator (e.spawn .creator) now).Sound n :=
    (h.sound s rfl).enrol hout (hrole ▸ hr) (.inr rfl)
  refine ⟨_, ?_, h.join hsound (hrole ▸ hr) fun r' => ?_⟩
  · have hhost := h.host b.role hr
    simp only [settle, hfinish, host?] at hhost ⊢
    rw [hhost]
    simp [answerJoin, Host.afterJoin, reference, agent?, hout, hrole]
  · rw [Session.isSome_agent?_enrol]
    rfl

end Requests

/-! ## Requests of a role in the session -/

section Joined

variable (now) (h : w.Shares e id n (some s)) (hid : b.session = id) (hr : b.role.number < n)
  (hin : (s.agent? b.role).isSome)

include h in
theorem current_eq : w.engine.current id now = .ok (s.checkTime e.options.timeLimit now) := by
  obtain ⟨sessions, heng⟩ := h.engine
  rw [current, h.session, heng]

include h hid hr hin

theorem host?_joined : w.host? b.role = some (.engine ⟨b.role, some b.session⟩) := by
  rw [h.host b.role hr, reference, if_pos (show (agent? (some s) b.role).isSome from hin), hid]

theorem take_status :
    ∃ w', take b .status now w = (.event (.status (.ok
        ⟨s.begunAt.isSome, (s.checkTime e.options.timeLimit now).isRunning⟩)), w') ∧
      w'.Shares e id n (some (s.checkTime e.options.timeLimit now)) := by
  have hhost := host?_joined h hid hr hin
  subst hid
  refine ⟨_, ?_, h.setSession (h.sound s rfl).checkTime fun _ => rfl⟩
  simp only [take, hhost, takeEngine, Host.status, Engine.status, current_eq now h]
  rfl

theorem take_send_stopped (token : String)
    (hstopped : ¬ (s.checkTime e.options.timeLimit now).isRunning) :
    ∃ w', take b (.send token) now w = (.event (.sent (.ok ())), w') ∧
      w'.Shares e id n (some (s.checkTime e.options.timeLimit now)) := by
  have hhost := host?_joined h hid hr hin
  subst hid
  refine ⟨_, ?_, h.setSession (h.sound s rfl).checkTime fun _ => rfl⟩
  simp only [take, hhost, takeEngine, Host.send, Engine.send, current_eq now h, hstopped]
  rfl

theorem take_send_running (c : Command) {p : Pose} (hpose : s.agent? b.role = some p)
    (hrun : (s.checkTime e.options.timeLimit now).isRunning) :
    ∃ w', take b (.send c.token) now w = (.event (.sent (.ok ())), w') ∧
      w'.Shares e id n
        (some ((s.checkTime e.options.timeLimit now).setPose b.role (e.moved p c))) := by
  have hhost := host?_joined h hid hr hin
  subst hid
  obtain ⟨sessions, heng⟩ := h.engine
  have hobey : w.engine.obey (s.checkTime e.options.timeLimit now) b.role b.session c.token =
      (.ok (), (s.checkTime e.options.timeLimit now).setPose b.role (e.moved p c)) := by
    rw [obey_token (s := s.checkTime e.options.timeLimit now) hpose, heng]
    rfl
  refine ⟨_, ?_, h.setSession (h.sound s rfl).checkTime.setPose fun _ =>
    Session.isSome_agent?_setPose⟩
  simp only [take, hhost, takeEngine, Host.send, Engine.send, current_eq now h, hrun, if_true,
    hobey]

theorem take_quit_running (hrun : (s.checkTime e.options.timeLimit now).isRunning) :
    ∃ w', take b (.send Command.quitToken) now w = (.event (.sent (.ok ())), w') ∧
      w'.Shares e id n (some { s with ended := true }) := by
  have hhost := host?_joined h hid hr hin
  subst hid
  have hsound := h.sound s rfl
  refine ⟨_, ?_, h.setSession (s := { s with ended := true })
    ⟨hsound.expected, hsound.nodup, hsound.bound, hsound.begun, hsound.available⟩ fun _ => rfl⟩
  simp only [take, hhost, takeEngine, Host.send, Engine.send, current_eq now h, hrun, if_true, obey]
  rfl

omit hid hin in
theorem take_observe : ∃ o, take b .observe now w = (.event (.observed o), w) := by
  simp only [take, h.host b.role hr, takeEngine]
  exact ⟨_, rfl⟩

omit hid hr hin in
theorem take_publish (snapshot : Snapshot) :
    ∃ w', take b (.publish snapshot) now w = (.event .published, w') ∧
      w'.Shares e id n (some s) :=
  ⟨{ w with board := w.board.map (·.publish snapshot) }, rfl, h.engine, h.session, h.host, h.sound⟩

end Joined

end World

end Labyrinth

import Labyrinth.Proofs.Coordinator.History
import Labyrinth.Proofs.Timeline.Room

/-!
# What a room answers

For each request, what a room can answer and what becomes of its session. A role that asks leaves
the agents of the others alone.
-/

namespace Labyrinth.Room

open Coordinator Engine

variable {e : Engine} {b : Brief} {now : Nat} {request : Request} {event : Event}
  {session? session?' : Option Session} {s : Session} {r : Role}

/-- The session is there before its creator, or it does not let the other role in. -/
structure Shut (r : Role) (session? : Option Session) : Prop where
  creator : r = .creator → session?.isSome
  other : r ≠ .creator →
    (∀ s ∈ session?, s.available = false) ∨ (World.agent? session? r).isSome

/-- A request is answered at once and leads from the one session to the other. A role of the scene
is refused only by a small pool or by a session that is shut. -/
inductive Serves (e : Engine) (b : Brief) (now : Nat) :
    Request → Option Session → Event → Option Session → Prop where
  | publish (snapshot : Snapshot) (session? : Option Session) :
      Serves e b now (.publish snapshot) session? .published session?
  | observe (answer : Option Observation) (session? : Option Session) :
      Serves e b now .observe session? (.observed answer) session?
  | refused (error : JoinError) (session? : Option Session)
      (why : b.sceneRoles ≤ b.pool.size → b.role.number < b.sceneRoles → Shut b.role session?) :
      Serves e b now .join session? (.joined (.error error)) session?
  | admitted (s : Session) (available : s.available) (out : s.agent? b.role = none) :
      Serves e b now .join (some s) (.joined (.ok ()))
        (some (s.enrol b.role (e.spawn b.role) now))
  | statusFailed (session? : Option Session) (out : World.agent? session? b.role = none)
      (reason : String) : Serves e b now .status session? (.status (.error reason)) session?
  | status (s : Session) (inside : (s.agent? b.role).isSome) :
      Serves e b now .status (some s) (.status (.ok ⟨s.begunAt.isSome,
        (s.checkTime e.options.timeLimit now).isRunning⟩))
        (some (s.checkTime e.options.timeLimit now))
  | sendFailed (token : String) (session? : Option Session)
      (out : World.agent? session? b.role = none) (reason : String) :
      Serves e b now (.send token) session? (.sent (.error reason)) session?
  | ignored (token : String) (s : Session) (inside : (s.agent? b.role).isSome)
      (stopped : ¬ (s.checkTime e.options.timeLimit now).isRunning) :
      Serves e b now (.send token) (some s) (.sent (.ok ()))
        (some (s.checkTime e.options.timeLimit now))
  | obeyed (token : String) (s : Session) (inside : (s.agent? b.role).isSome)
      (running : (s.checkTime e.options.timeLimit now).isRunning) :
      Serves e b now (.send token) (some s)
        (.sent (e.obey (s.checkTime e.options.timeLimit now) b.role b.session token).1)
        (some (e.obey (s.checkTime e.options.timeLimit now) b.role b.session token).2)

theorem serves_attach (hrole : b.role ≠ .creator) :
    Serves e b now .join session? (.joined (attach e b now session?).1)
      (attach e b now session?).2 := by
  have hshut : ∀ session?, ((∀ s ∈ session?, s.available = false) ∨
      (World.agent? session? b.role).isSome) → Shut b.role session? := fun session? h =>
    ⟨fun heq => absurd heq hrole, fun _ => h⟩
  unfold attach
  split
  · exact .refused _ none fun _ _ => hshut none (.inl fun s hs => by cases hs)
  · rename_i s
    split
    · rename_i hclosed
      refine .refused _ (some s) fun _ _ => hshut _ (.inl ?_)
      rintro _ ⟨⟩
      simpa using hclosed
    · rename_i hopen
      split
      · exact .refused _ (some s) fun _ _ => hshut _ (.inr ‹_›)
      · exact .admitted s (by simpa using hopen) (Option.not_isSome_iff_eq_none.mp ‹_›)

theorem serves_status :
    Serves e b now .status session? (status e b now session?).1 (status e b now session?).2 := by
  unfold status
  rcases joined_cases session? b.role with ⟨hjoined, hout⟩ | ⟨s, rfl, hin, hjoined⟩
  · rw [hjoined]
    exact .statusFailed session? hout _
  · rw [hjoined]
    exact .status s hin

theorem serves_send (token : String) :
    Serves e b now (.send token) session? (send e b token now session?).1
      (send e b token now session?).2 := by
  unfold send
  rcases joined_cases session? b.role with ⟨hjoined, hout⟩ | ⟨s, rfl, hin, hjoined⟩
  · rw [hjoined]
    exact .sendFailed token session? hout _
  · rw [hjoined]
    dsimp only
    split
    · exact .obeyed token s hin ‹_›
    · exact .ignored token s hin ‹_›

theorem join_cases (e : Engine) (b : Brief) (now : Nat) (session? : Option Session) :
    (∃ event session?', join e b now session? = (.event event, session?') ∧
        Serves e b now .join session? event session?') ∨
      session? = none ∧ b.role = .creator ∧
        join e b now session? = (.later e.options.creationLatency (.creation b.session),
          some (.ofExpected b.sceneRoles)) := by
  unfold join
  split
  · exact .inl ⟨_, _, rfl, .refused _ _ fun hpool _ => absurd ‹_› (Nat.not_lt.mpr hpool)⟩
  · split
    · exact .inl ⟨_, _, rfl, .refused _ _ fun _ hrole => absurd ‹_› (Nat.not_le.mpr hrole)⟩
    · split
      · rename_i hcreator
        have hrole : b.role = .creator := congrArg Role.mk (of_decide_eq_true hcreator)
        cases session? with
        | some s => exact .inl ⟨_, _, rfl, .refused _ _ fun _ _ => ⟨fun _ => rfl, absurd hrole⟩⟩
        | none => exact .inr ⟨rfl, hrole, rfl⟩
      · rename_i hother
        refine .inl ⟨_, _, rfl, serves_attach fun hrole => hother ?_⟩
        rw [hrole]
        rfl

theorem take_cases (e : Engine) (network : Network) (b : Brief) (now : Nat)
    (session? : Option Session) (hnap : ∀ span, request ≠ .nap span)
    (hprobe : ∀ endpoint limit, request ≠ .probe endpoint limit) :
    (∃ event session?', take e network b request now session? = (.event event, session?') ∧
        Serves e b now request session? event session?') ∨
      request = .join ∧ session? = none ∧ b.role = .creator ∧
        take e network b request now session? =
          (.later e.options.creationLatency (.creation b.session),
            some (.ofExpected b.sceneRoles)) := by
  cases request with
  | probe endpoint limit => exact absurd rfl (hprobe endpoint limit)
  | publish snapshot => exact .inl ⟨_, _, rfl, .publish snapshot _⟩
  | status => exact .inl ⟨_, _, rfl, serves_status⟩
  | send token => exact .inl ⟨_, _, rfl, serves_send token⟩
  | observe => exact .inl ⟨_, _, rfl, .observe _ _⟩
  | nap span => exact absurd rfl (hnap span)
  | join =>
    rcases join_cases e b now session? with hserved | hcreates
    · exact .inl hserved
    · exact .inr ⟨rfl, hcreates⟩

theorem Serves.answers {x : Cancellation} (h : Serves e b now request session? event session?') :
    Answers x now request event now := by
  cases h with
  | publish snapshot => exact .publish snapshot
  | observe => exact .observe (Nat.le_refl now) _
  | refused | admitted => exact .join (Nat.le_refl now) _
  | statusFailed | status => exact .status (Nat.le_refl now) _
  | sendFailed | ignored | obeyed => exact .send (Nat.le_refl now) _ _

/-! ## What stays -/

theorem Serves.agent? (h : Serves e b now request session? event session?') (hne : r ≠ b.role) :
    World.agent? session?' r = World.agent? session? r := by
  cases h with
  | publish | observe | refused | statusFailed | sendFailed => rfl
  | admitted s out =>
    change (s.enrol b.role (e.spawn b.role) now).agent? r = s.agent? r
    rw [Session.agent?_enrol, if_neg hne]
  | status | ignored => rfl
  | obeyed token s => exact agent?_obey hne

/-- What a session that has gone on still is. -/
structure Outlasts (session? session?' : Option Session) : Prop where
  isSome : session?.isSome → session?'.isSome
  inside : ∀ r, (World.agent? session? r).isSome → (World.agent? session?' r).isSome
  begunAt : ∀ t, session?.bind (·.begunAt) = some t → session?'.bind (·.begunAt) = some t
  ended : session?.any (·.ended) → session?'.any (·.ended)

theorem Outlasts.refl (session? : Option Session) : Outlasts session? session? :=
  ⟨id, fun _ => id, fun _ => id, id⟩

theorem outlasts_none (session? : Option Session) : Outlasts none session? where
  isSome h := by cases h
  inside r h := by cases h
  begunAt t h := by cases h
  ended h := by cases h

theorem outlasts_checkTime (s : Session) (limit : Option Nat) (now : Nat) :
    Outlasts (some s) (some (s.checkTime limit now)) where
  isSome := id
  inside _ := id
  begunAt _ := id
  ended h := by
    change (s.ended || _) = true
    rw [show s.ended = true from h, Bool.true_or]

theorem outlasts_enrol (s : Session) (r : Role) (p : Pose) (now : Nat) (available : Bool) :
    Outlasts (some s) (some ({ s with available }.enrol r p now)) where
  isSome := id
  inside _ h := Session.isSome_agent?_enrol.mpr (.inr h)
  begunAt _ h := Session.begunAt_enrol h
  ended := id

theorem outlasts_obey (s : Session) (r : Role) (id : SessionId) (token : String) :
    Outlasts (some s) (some (e.obey s r id token).2) where
  isSome h := h
  inside _ h := isSome_agent?_obey.trans h
  begunAt _ h := begunAt_obey.trans h
  ended h := ended_obey h

theorem Outlasts.trans {session?'' : Option Session} (h : Outlasts session? session?')
    (h' : Outlasts session?' session?'') : Outlasts session? session?'' where
  isSome hs := h'.isSome (h.isSome hs)
  inside r hr := h'.inside r (h.inside r hr)
  begunAt t ht := h'.begunAt t (h.begunAt t ht)
  ended he := h'.ended (h.ended he)

theorem Serves.outlasts (h : Serves e b now request session? event session?') :
    Outlasts session? session?' := by
  cases h with
  | publish | observe | refused | statusFailed | sendFailed => exact .refl _
  | admitted s => exact outlasts_enrol s _ _ _ s.available
  | status s | ignored _ s => exact outlasts_checkTime s _ _
  | obeyed token s => exact (outlasts_checkTime s _ _).trans (outlasts_obey _ _ _ _)

theorem Serves.runsAt {t : Nat} (h : Serves e b now request session? event session?')
    (hsend : ∀ token, request ≠ .send token) (hle : now ≤ t)
    (hrun : Session.RunsAt e.options.timeLimit t session?) :
    Session.RunsAt e.options.timeLimit t session?' := by
  cases h with
  | publish | observe | refused | statusFailed => exact hrun
  | admitted s => exact hrun.enrol
  | status s => exact hrun.checkTime hle
  | sendFailed token | ignored token | obeyed token => exact absurd rfl (hsend token)

/-! ## What is new -/

theorem Serves.inside (h : Serves e b now request session? event session?')
    (hin : (World.agent? session?' b.role).isSome) :
    (World.agent? session? b.role).isSome ∨ event = .joined (.ok ()) := by
  cases h with
  | admitted => exact .inr rfl
  | obeyed =>
    change ((e.obey _ _ _ _).2.agent? b.role).isSome at hin
    rw [isSome_agent?_obey] at hin
    exact .inl hin
  | publish | observe | refused | statusFailed | status | sendFailed | ignored =>
    exact .inl hin

theorem Serves.begunAt {t : Nat} (h : Serves e b now request session? event session?')
    (hb : session?'.bind (·.begunAt) = some t) :
    session?.bind (·.begunAt) = some t ∨ request = .join ∧ t = now := by
  cases h with
  | admitted => exact (Session.begunAt_enrol_eq_some hb).imp_right fun ht => ⟨rfl, ht⟩
  | obeyed =>
    change (e.obey _ _ _ _).2.begunAt = some t at hb
    rw [begunAt_obey] at hb
    exact .inl hb
  | publish | observe | refused | statusFailed | status | sendFailed | ignored =>
    exact .inl hb

theorem Serves.available (h : Serves e b now request session? event session?') :
    session?'.map (·.available) = session?.map (·.available) := by
  cases h with
  | obeyed => exact congrArg some available_obey
  | _ => rfl

theorem Serves.sound {n : Nat} (h : Serves e b now request session? event session?')
    (hr : b.role.number < n) (hs : ∀ s ∈ session?, s.Sound n) : ∀ s ∈ session?', s.Sound n := by
  cases h with
  | publish | observe | refused | statusFailed | sendFailed => exact hs
  | admitted s available out =>
    rintro _ ⟨⟩
    have hsound : ({ s with available := true }.enrol b.role (e.spawn b.role) now).Sound n :=
      (hs s rfl).enrol out hr (.inl available)
    rwa [← available] at hsound
  | status s | ignored _ s =>
    rintro _ ⟨⟩
    exact (hs s rfl).checkTime
  | obeyed _ s =>
    rintro _ ⟨⟩
    exact sound_obey (hs s rfl).checkTime

end Labyrinth.Room

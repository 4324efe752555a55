import Labyrinth.Proofs.Coordinator.Patience
import Labyrinth.Proofs.Launch.Testimony

/-!
# Rosters

A role is in the session exactly if its log says that it was let in, and a session that has begun
holds all roles of its scene.
-/

namespace Labyrinth

open Coordinator Engine Timeline Room

namespace Venture

/-- What the log of a role leaves open about its session at a time. -/
structure Accounts (r : Role) (log : List Exchange) (session? : Option Session) (now : Nat) :
    Prop where
  inside : (World.agent? session? r).isSome → ∃ q ∈ log, q.isAdmission
  failures : ∀ q ∈ log, q.isFailure → q.isJoin
  unbegun : ∀ q ∈ log, q.saysUnbegun → q.answeredAt ≤ now ∧
    ∀ t, session?.bind (·.begunAt) = some t → q.answeredAt ≤ t

variable {V : Venture} {r : Role} {log log' : List Exchange} {session? session?' : Option Session}
  {c : Coordinator} {now time t i : Nat} {state : State World.Pending} {q : Exchange}
  {request : Request} {event : Event} {due : Due World.Pending} {tl : Room}
  {logs : Nat → List Exchange}

theorem Accounts.later (h : Accounts r log session? now) (hle : now ≤ time)
    (hinside : (World.agent? session?' r).isSome → (World.agent? session? r).isSome)
    (hbegun : ∀ t, session?'.bind (·.begunAt) = some t →
      session?.bind (·.begunAt) = some t ∨ t = time) : Accounts r log session?' time where
  inside hin := h.inside (hinside hin)
  failures := h.failures
  unbegun q hq hsaid := by
    obtain ⟨hnow, hbefore⟩ := h.unbegun q hq hsaid
    refine ⟨Nat.le_trans hnow hle, fun t ht => ?_⟩
    rcases hbegun t ht with ht | rfl
    · exact hbefore t ht
    · exact Nat.le_trans hnow hle

theorem Accounts.snoc (h : Accounts r log session? now) (failure : q.isFailure → q.isJoin)
    (unbegun : q.saysUnbegun → q.answeredAt ≤ now ∧ session?.bind (·.begunAt) = none) :
    Accounts r (log ++ [q]) session? now where
  inside hin := by
    obtain ⟨e, he, hadmission⟩ := h.inside hin
    exact ⟨e, List.mem_append_left _ he, hadmission⟩
  failures := forall_mem_append_singleton h.failures failure
  unbegun := forall_mem_append_singleton h.unbegun fun hsaid =>
    ⟨(unbegun hsaid).1, fun t ht => by rw [(unbegun hsaid).2] at ht; cases ht⟩

theorem Accounts.enter (h : Accounts r log session? now) (hle : now ≤ time)
    (hadmission : q.isAdmission) (hsaid : ¬ q.saysUnbegun)
    (hbegun : ∀ t, session?'.bind (·.begunAt) = some t →
      session?.bind (·.begunAt) = some t ∨ t = time) : Accounts r (log ++ [q]) session?' time where
  inside _ := ⟨q, List.mem_append_right _ (List.mem_singleton_self q), hadmission⟩
  failures := forall_mem_append_singleton h.failures fun hfailure =>
    absurd hfailure (Exchange.not_isFailure_of_isAdmission hadmission)
  unbegun := by
    refine forall_mem_append_singleton (fun e he hunbegun => ?_) fun hunbegun => absurd hunbegun hsaid
    obtain ⟨hnow, hbefore⟩ := h.unbegun e he hunbegun
    refine ⟨Nat.le_trans hnow hle, fun t ht => ?_⟩
    rcases hbegun t ht with ht | rfl
    · exact hbefore t ht
    · exact Nat.le_trans hnow hle

/-! ## Steps -/

theorem Hears.begunAt (hears : V.Hears time due log session? event log' session?')
    (ht : session?'.bind (·.begunAt) = some t) :
    session?.bind (·.begunAt) = some t ∨ (∃ p, due = .settle p) ∧ t = time := by
  cases hears with
  | event => exact .inl ht
  | created => exact (Session.begunAt_enrol_eq_some ht).imp_right fun ht => ⟨⟨_, rfl⟩, ht⟩

theorem Asks.begunAt (asks : V.Asks c time log session? state log' session?')
    (ht : session?'.bind (·.begunAt) = some t) :
    session?.bind (·.begunAt) = some t ∨ c.request = some .join ∧ t = time := by
  cases asks with
  | ended | naps | probes => exact .inl ht
  | served asked serves => exact (serves.begunAt ht).imp_right fun ⟨heq, ht⟩ => ⟨heq ▸ asked, ht⟩
  | creates => cases ht

theorem Hears.accounts {u : Track World.Pending} {order : Nat}
    (hears : V.Hears time due log session? event log' session?')
    (lived : V.Lived r session? now log u) (hstate : u.state = .waiting time order due)
    (h : Accounts r log session? now) : Accounts r log' session?' time := by
  have hle := lived.le_time hstate
  have hbegun : ∀ t, session?'.bind (·.begunAt) = some t →
      session?.bind (·.begunAt) = some t ∨ t = time := fun t ht =>
    (hears.begunAt ht).imp_right And.right
  cases hears with
  | event => exact h.later hle id hbegun
  | created => exact h.enter hle rfl Bool.false_ne_true hbegun

theorem Accounts.served (h : Accounts r log session? time)
    (history : History (V.brief r) V.cancellation log c time)
    (vouched : Vouched (V.brief r) log session?) (asked : c.request = some request)
    (serves : Serves V.engine c.brief time request session? event session?') :
    Accounts r (log ++ record request time event time) session?' time := by
  have hrole : c.brief.role = r := congrArg Brief.role history.stands.brief
  have hbegun : ∀ t, session?'.bind (·.begunAt) = some t →
      session?.bind (·.begunAt) = some t ∨ t = time := fun t ht =>
    (serves.begunAt ht).imp_right And.right
  -- A role that was let in is still in the session.
  have hinside : Admitted log → (World.agent? session? c.brief.role).isSome := by
    rintro hadmitted
    obtain ⟨q, hq, -, hadmission⟩ := hadmitted.exists_admission
    exact hrole ▸ vouched.admitted q hq hadmission
  have hlater (hne : event ≠ .joined (.ok ())) : Accounts r log session?' time := by
    refine h.later (Nat.le_refl _) (fun hin => ?_) hbegun
    exact hrole ▸ (serves.inside (hrole.symm ▸ hin)).resolve_right hne
  cases serves with
  | publish =>
    rw [record_publish, List.append_nil]
    exact h
  | admitted => exact h.enter (Nat.le_refl _) rfl Bool.false_ne_true hbegun
  | refused => exact (hlater (by simp)).snoc (fun _ => rfl) (absurd · Bool.false_ne_true)
  | observe | ignored =>
    exact (hlater (by simp)).snoc (absurd · Bool.false_ne_true) (absurd · Bool.false_ne_true)
  | statusFailed _ out =>
    have hin := hinside (history.admitted_of_status asked)
    rw [out] at hin
    cases hin
  | sendFailed _ _ out =>
    have hin := hinside (history.admitted_of_send asked)
    rw [out] at hin
    cases hin
  | status s =>
    refine (hlater (by simp)).snoc (absurd · Bool.false_ne_true) fun hsaid => ⟨Nat.le_refl _, ?_⟩
    simpa [Exchange.saysUnbegun, Exchange.status?, Session.checkTime] using hsaid
  | obeyed token s inside =>
    refine (hlater (by simp)).snoc (fun hfailure => ?_) (absurd · Bool.false_ne_true)
    have htaken : (V.engine.obey (s.checkTime V.engine.options.timeLimit time) c.brief.role
        c.brief.session token).1 = .ok () := by
      rcases request_send asked with ⟨a, rest, -, rfl⟩ | ⟨-, rfl⟩
      · obtain ⟨p, hp⟩ := Option.isSome_iff_exists.mp inside
        rw [obey_token (s := s.checkTime V.engine.options.timeLimit time) hp]
      · rw [obey_quitToken]
    rw [htaken] at hfailure
    cases hfailure

theorem Asks.accounts (asks : V.Asks c time log session? state log' session?')
    (history : History (V.brief r) V.cancellation log c time)
    (vouched : Vouched (V.brief r) log session?) (h : Accounts r log session? time) :
    Accounts r log' session?' time := by
  cases asks with
  | ended | naps | probes => exact h
  | served asked serves => exact h.served history vouched asked serves
  | creates => exact h.later (Nat.le_refl _) (absurd · Bool.false_ne_true) fun t ht => by cases ht

theorem Chronicle.accounts (h : V.Chronicle logs tl) (r : Role) :
    Accounts r (logs r.number) tl.world tl.now := by
  induction h with
  | start => exact ⟨(absurd · Bool.false_ne_true), List.forall_mem_nil _, List.forall_mem_nil _⟩
  | goOn h _ stride ih =>
    have hvouched := h.vouched r
    obtain ⟨track, waiting, first, hears, history, asks, changed⟩ := stride
    rename_i i time _ _ _ _ _ _ _ _ _
    have hlived := h.lived track
    rw [changed.world, changed.now]
    by_cases hi : i = r.number
    · subst hi
      rw [Function.update_self]
      exact asks.accounts history (hears.vouched hlived waiting hvouched)
        (hears.accounts hlived waiting ih)
    · have hne : r ≠ ⟨i⟩ := fun heq => hi (heq ▸ rfl)
      have hrole := congrArg Brief.role history.stands.brief
      rw [Function.update_of_ne (Ne.symm hi)]
      refine ih.later (hlived.le_time waiting) (fun hin => ?_) fun t ht => ?_
      · rw [asks.agent?_of_ne (hrole ▸ hne), hears.agent?_of_ne hlived waiting hne] at hin
        exact hin
      · rcases asks.begunAt ht with ht | ⟨-, ht⟩
        · exact (hears.begunAt ht).imp_right And.right
        · exact .inr ht

/-! ## The whole scene -/

theorem Chronicle.sound (hscene : V.launch.sceneRoles = V.launch.settings.roles)
    (h : V.Chronicle logs tl) : ∀ s ∈ tl.world, s.Sound V.launch.settings.roles := by
  induction h with
  | start =>
    intro s hs
    cases hs
  | @goOn logs logs' tl tl' h _ stride ih =>
    have haccounts := fun r => h.accounts r
    have hlength := h.length
    obtain ⟨track, waiting, first, hears, history, asks, changed⟩ := stride
    rename_i i time _ _ _ _ _ _ session? _ _
    have hlived := h.lived track
    have hlt : i < V.launch.settings.roles := hlength ▸ (List.getElem?_eq_some_iff.mp track).1
    have hheard : ∀ s ∈ session?, s.Sound V.launch.settings.roles := by
      generalize hlog : logs i = log at hears hlived
      generalize htl : tl.world = world at hears hlived ih haccounts
      cases hears with
      | event => exact ih
      | created _ s =>
        rintro _ ⟨⟩
        obtain ⟨hrole, since, history, asked⟩ := hlived.of_settle waiting
        refine (ih s rfl).enrol (Option.not_isSome_iff_eq_none.mp fun hin => ?_) ?_ (.inr rfl)
        · obtain ⟨q, hq, hadmission⟩ := (haccounts .creator).inside hin
          have hi : i = Role.creator.number := congrArg Role.number hrole
          refine Exchange.not_isFailure_of_isAdmission hadmission
            (history.joins_of_request asked q ?_).2
          rwa [← hlog, hi]
        · exact Nat.lt_of_le_of_lt (Nat.zero_le i) hlt
    rw [changed.world]
    cases asks with
    | ended | naps | probes => exact hheard
    | served asked serves =>
      refine serves.sound ?_ hheard
      rw [history.stands.brief]
      exact hlt
    | creates =>
      rintro _ ⟨⟩
      rw [history.stands.brief]
      change (Session.ofExpected V.launch.sceneRoles).Sound _
      rw [hscene]
      exact .ofExpected (Nat.zero_lt_of_lt hlt)

theorem Chronicle.exists_admission (hscene : V.launch.sceneRoles = V.launch.settings.roles)
    (h : V.Chronicle logs tl) (hbegun : (tl.world.bind (·.begunAt)).isSome)
    (hr : r.number < V.launch.settings.roles) : ∃ q ∈ logs r.number, q.isAdmission := by
  refine (h.accounts r).inside ?_
  have hsound := h.sound hscene
  generalize tl.world = world at hbegun hsound
  cases world with
  | none => cases hbegun
  | some s => exact (hsound s rfl).isSome_agent? hbegun hr

end Venture

end Labyrinth

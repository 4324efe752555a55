import Labyrinth.Proofs.Engine.Turns

/-!
# While a session is running

A session that has begun has begun for good, and one that has stopped never runs again.
-/

namespace Labyrinth.Engine

namespace Session

variable {s : Session} {limit : Option Nat} {now t : Nat}

theorem ended_checkTime_mono (hle : now ≤ t) (h : (s.checkTime limit now).ended) :
    (s.checkTime limit t).ended := by
  unfold checkTime at h ⊢
  simp only [Bool.or_eq_true] at h ⊢
  apply h.imp_right
  intro hover
  exact isOver_mono hle hover

theorem isSome_begunAt_of_isOver (h : s.isOver limit now) : s.begunAt.isSome := by
  unfold isOver at h
  cases hbegun : s.begunAt with
  | none =>
    rw [hbegun] at h
    cases h
  | some begun => rfl

theorem checkTime_checkTime (hle : now ≤ t) :
    (s.checkTime limit now).checkTime limit t = s.checkTime limit t := by
  have hmono : s.isOver limit now → s.isOver limit t := isOver_mono hle
  change { s with ended := (s.ended || s.isOver limit now) || s.isOver limit t } =
    { s with ended := s.ended || s.isOver limit t }
  congr 1
  rw [Bool.or_assoc]
  congr 1
  cases hnow : s.isOver limit now with
  | false => rfl
  | true => simp [hmono hnow]

end Session

namespace Usage

variable {u : Usage} {c : Call} {calls : List Call} {deed : Option Deed} {id : SessionId}
  {session?' : Option Session} {s : Session} {b : Nat} {r : Role}

/-- When a session began. -/
def begunAt? (u : Usage) (id : SessionId) : Option Nat := (u.session? id).bind Session.begunAt

theorem begunAt?_eq_some_iff :
    u.begunAt? id = some b ↔ ∃ s, u.session? id = some s ∧ s.begunAt = some b := by
  unfold begunAt?
  exact Option.bind_eq_some_iff

theorem runs_iff : u.runs id ↔ Session.RunsAt u.limit u.now (u.session? id) := by
  unfold runs Session.RunsAt
  rw [Option.any_eq_true]

theorem runs_eq (hs : u.session? id = some s) :
    u.runs id = (s.checkTime u.limit u.now).isRunning := by
  simp [runs, hs]

theorem pose?_eq (hs : u.session? id = some s) : u.pose? id r = s.agent? r := by
  simp [pose?, hs]

theorem isSome_begunAt?_of_runs (h : u.runs id) : (u.begunAt? id).isSome := by
  obtain ⟨s, hs, hrun⟩ := runs_iff.mp h
  have hbegun := (Session.isRunning_checkTime.mp hrun).1
  unfold begunAt?
  rw [hs]
  exact hbegun

/-! ## What has begun has begun for good -/

theorem Turn.begun (h : Turn u id c deed session?') (hs : u.session? id = some s)
    (hb : s.begunAt = some b) : ∃ s', session?' = some s' ∧ s'.begunAt = some b := by
  cases h with
  | aside => exact ⟨s, hs, hb⟩
  | founded _ _ hnone =>
    rw [hs] at hnone
    cases hnone
  | admitted hs' | completed _ _ hs' =>
    obtain rfl := Option.some.inj (hs.symm.trans hs')
    exact ⟨_, rfl, Session.begunAt_enrol hb⟩
  | asked _ hs' =>
    obtain rfl := Option.some.inj (hs.symm.trans hs')
    exact ⟨_, rfl, hb⟩
  | told _ hs' =>
    obtain rfl := Option.some.inj (hs.symm.trans hs')
    exact ⟨_, rfl, continues_told.begunAt.trans hb⟩

theorem begunAt?_serve (h : u.begunAt? id = some b) : (u.serve c).2.begunAt? id = some b := by
  obtain ⟨s, hs, hb⟩ := begunAt?_eq_some_iff.mp h
  exact begunAt?_eq_some_iff.mpr ((turn_serve u c id).begun hs hb)

theorem begunAt?_after (h : u.begunAt? id = some b) : (u.after calls).begunAt? id = some b := by
  induction calls generalizing u with
  | nil => exact h
  | cons c calls ih => exact ih (begunAt?_serve h)

/-! ## What has stopped has stopped for good -/

/-- The session has begun and is not running any more. -/
def Stopped (u : Usage) (id : SessionId) : Prop := (u.begunAt? id).isSome ∧ ¬ u.runs id

theorem stopped_iff : u.Stopped id ↔ ∃ s, u.session? id = some s ∧ s.begunAt.isSome ∧
    (s.checkTime u.limit u.now).ended := by
  unfold Stopped begunAt? runs
  cases hs : u.session? id with
  | none => simp
  | some s =>
    change (s.begunAt.isSome ∧ ¬ (s.begunAt.isSome && !(s.checkTime u.limit u.now).ended)) ↔ _
    cases hb : s.begunAt.isSome <;> simp [hb]

theorem Turn.stopped (h : Turn u id c deed session?') (hs : u.session? id = some s)
    (hbegun : s.begunAt.isSome) (hended : (s.checkTime u.limit u.now).ended) :
    ∃ s', session?' = some s' ∧ s'.begunAt.isSome ∧ (s'.checkTime u.limit u.now).ended := by
  obtain ⟨b, hb⟩ := Option.isSome_iff_exists.mp hbegun
  -- A newcomer leaves alone when the session began and whether it has ended.
  have henrol : ∀ (available : Bool) r p, (({ s with available }.enrol r p u.now).checkTime
      u.limit u.now).ended := by
    intro available r p
    have hsame : ({ s with available }.enrol r p u.now).begunAt = s.begunAt :=
      (Session.begunAt_enrol hb).trans hb.symm
    unfold Session.checkTime Session.isOver at hended ⊢
    rw [hsame]
    exact hended
  cases h with
  | aside => exact ⟨s, hs, hbegun, hended⟩
  | founded _ _ hnone =>
    rw [hs] at hnone
    cases hnone
  | admitted hs' | completed _ _ hs' =>
    obtain rfl := Option.some.inj (hs.symm.trans hs')
    refine ⟨_, rfl, ?_, henrol _ _ _⟩
    exact Option.isSome_iff_exists.mpr ⟨b, Session.begunAt_enrol hb⟩
  | asked _ hs' =>
    obtain rfl := Option.some.inj (hs.symm.trans hs')
    refine ⟨_, rfl, hbegun, ?_⟩
    rwa [Session.checkTime_checkTime (Nat.le_refl _)]
  | @told _ r _ token _ hs' =>
    obtain rfl := Option.some.inj (hs.symm.trans hs')
    have hnot : ¬ (s.checkTime u.limit u.now).isRunning := by
      simp [Session.isRunning, hended]
    have htold : u.engine.told s r id token u.now = s.checkTime u.limit u.now :=
      told_of_not_running hnot
    refine ⟨_, rfl, ?_, ?_⟩
    · rwa [htold]
    · rwa [htold, Session.checkTime_checkTime (Nat.le_refl _)]

theorem limit_serve (u : Usage) (c : Call) : (u.serve c).2.limit = u.limit :=
  limit_after u [c]

theorem Stopped.serve (h : u.Stopped id) (c : Call) : (u.serve c).2.Stopped id := by
  obtain ⟨s, hs, hbegun, hended⟩ := stopped_iff.mp h
  obtain ⟨s', hs', hbegun', hended'⟩ := (turn_serve u c id).stopped hs hbegun hended
  refine stopped_iff.mpr ⟨s', hs', hbegun', ?_⟩
  rw [limit_serve]
  exact Session.ended_checkTime_mono (served_serve u c).now_le hended'

theorem Stopped.after (h : u.Stopped id) (calls : List Call) : (u.after calls).Stopped id := by
  induction calls generalizing u with
  | nil => exact h
  | cons c calls ih => exact ih (h.serve c)

/-! ## What ends a session -/

theorem ended_obey_of_ne {e : Engine} {r : Role} {token : String}
    (h : token ≠ Command.quitToken) : (e.obey s r id token).2.ended = s.ended := by
  unfold obey
  rw [if_neg h]
  split
  · rfl
  · split <;> rfl

theorem Turn.runsAt (h : Turn u id c deed session?')
    (hrun : Session.RunsAt u.limit u.now (u.session? id))
    (hquit : ∀ host, c = .send host Command.quitToken → u.reference host ≠ some id) :
    Session.RunsAt u.limit u.now session?' := by
  cases h with
  | aside => exact hrun
  | founded _ _ hnone =>
    rw [hnone] at hrun
    obtain ⟨s, hs, -⟩ := hrun
    cases hs
  | admitted hs =>
    rw [hs] at hrun
    exact hrun.enrol
  | @completed i p s _ _ hs =>
    rw [hs] at hrun
    have hopen : Session.RunsAt u.limit u.now (some { s with available := true }) :=
      hrun.of_same rfl rfl
    exact hopen.enrol
  | asked _ hs =>
    rw [hs] at hrun
    exact hrun.checkTime (Nat.le_refl _)
  | @told host r s token hhost hs =>
    rw [hs] at hrun
    have hne : token ≠ Command.quitToken := by
      rintro rfl
      exact hquit host rfl (reference_eq hhost)
    have htold : u.engine.told s r id token u.now =
        (u.engine.obey (s.checkTime u.limit u.now) r id token).2 :=
      told_of_running (Session.runsAt_some.mp hrun)
    rw [htold]
    exact (hrun.checkTime (Nat.le_refl _)).of_same begunAt_obey (ended_obey_of_ne hne)

theorem runs_serve_of_quiet (hrun : u.runs id) (hspan : c.span = 0)
    (hquit : ∀ host, c = .send host Command.quitToken → u.reference host ≠ some id) :
    (u.serve c).2.runs id := by
  have hnow : (u.serve c).2.now = u.now := by
    rw [(served_serve u c).now_eq, hspan]
    rfl
  rw [runs_iff, limit_serve, hnow]
  exact (turn_serve u c id).runsAt (runs_iff.mp hrun) hquit

theorem runs_serve_send {host : Nat} {token : String} (hrun : u.runs id)
    (hne : token ≠ Command.quitToken) : (u.serve (.send host token)).2.runs id := by
  apply runs_serve_of_quiet hrun rfl
  rintro _ ⟨⟩
  exact absurd rfl hne

theorem runs_serve (h : u.runs id) (hlater : (u.after (c :: calls)).runs id) :
    (u.serve c).2.runs id := by
  by_contra hnot
  obtain ⟨b, hb⟩ := Option.isSome_iff_exists.mp (isSome_begunAt?_of_runs h)
  have hstopped : (u.serve c).2.Stopped id :=
    ⟨by rw [begunAt?_serve hb]; rfl, hnot⟩
  exact (hstopped.after calls).2 hlater

end Usage

end Labyrinth.Engine

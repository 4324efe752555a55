import Labyrinth.Proofs.Engine.Calls

/-!
# What a call does to a session

A call is about one session at most and leaves all others alone. `Sane` says what holds of the
sessions, the hosts and the creations at any time.
-/

namespace Labyrinth.Engine.Usage

variable {u u' : Usage} {c : Call} {deed : Option Deed} {id : SessionId}
  {session?' : Option Session} {s s' : Session} {r r' : Role}

/-! ## Turns -/

/-- What becomes of a session by a call. A call that is about another one leaves it alone. -/
inductive Turn (u : Usage) (id : SessionId) : Call → Option Deed → Option Session → Prop where
  | aside {c : Call} {deed : Option Deed} (hstarts : ∀ d ∈ deed, d.starts id = false)
      (hadmits : ∀ d ∈ deed, ∀ r, d.admits r id = false)
      (hsend : ∀ host token, c = .send host token → u.reference host = some id →
        u.session? id = none) : Turn u id c deed (u.session? id)
  | founded {host sceneRoles poolSize : Nat} {p : Creation} (hroles : 0 < sceneRoles)
      (hp : p.session = id) (hnone : u.session? id = none) :
      Turn u id (.join host sceneRoles poolSize .creator id) (some (.creating .creator p))
        (some (.ofExpected sceneRoles))
  | admitted {host sceneRoles poolSize : Nat} {r : Role} {s : Session} (hs : u.session? id = some s)
      (havail : s.available) (hout : s.agent? r = none) :
      Turn u id (.join host sceneRoles poolSize r id) (some (.joined host r id (.ok ())))
        (some (s.enrol r (u.engine.spawn r) u.now))
  | completed {i : Nat} {p : Creation} {s : Session} (hp : u.underway i = some p)
      (hsession : p.session = id) (hs : u.session? id = some s) :
      Turn u id (.complete i) (some (.created p (.ok ())))
        (some ({ s with available := true }.enrol .creator (u.engine.spawn .creator) u.now))
  | asked {host : Nat} {s : Session} (hhost : u.reference host = some id)
      (hs : u.session? id = some s) (answer : Except String Status) :
      Turn u id (.status host) (some (.asked host answer)) (some (s.checkTime u.limit u.now))
  | told {host : Nat} {r : Role} {s : Session} {token : String}
      (hhost : u.hosts[host]? = some ⟨r, some id⟩) (hs : u.session? id = some s)
      (answer : Except String Unit) (hquit : token = Command.quitToken → answer = .ok ()) :
      Turn u id (.send host token) (some (.sent host token answer))
        (some (u.engine.told s r id token u.now))

theorem Served.turn (h : Served u c deed u') (id : SessionId) :
    Turn u id c deed (u'.session? id) := by
  -- A session is as before unless it is the one that has been set.
  have hother : ∀ {id' : SessionId} {s : Session}, id' ≠ id →
      (u.engine.setSession id' s).session? id = u.session? id := fun hne => by
    rw [session?_setSession, if_neg hne]
    rfl
  have hself : ∀ s : Session, (u.engine.setSession id s).session? id = some s := fun s =>
    session?_setSession_self
  cases h with
  | @idle c deed u' hdeed _ hsend _ hengine =>
    have hsame : u'.session? id = u.session? id := congrArg (fun e => Engine.session? e id) hengine
    rw [hsame]
    exact .aside (fun d hd => (hdeed d hd).starts id) (fun d hd r => (hdeed d hd).admits r id)
      fun host token hc href => hsend host token hc id href
  | entered r => exact .aside (by simp) (by simp) (by simp)
  | @founded sceneRoles poolSize p hhost hroles hnone =>
    by_cases hp : p.session = id
    · subst hp
      rw [session?, hself]
      exact .founded hroles rfl hnone
    · rw [session?, hother hp]
      refine .aside ?_ ?_ (by simp)
      · rintro _ ⟨⟩
        exact decide_eq_false hp
      · rintro _ ⟨⟩ r
        rfl
  | @admitted host sceneRoles poolSize r id' s hhost hs havail hout =>
    by_cases hid : id' = id
    · subst hid
      rw [session?, hself]
      exact .admitted hs havail hout
    · rw [session?, hother hid]
      refine .aside ?_ ?_ (by simp)
      · rintro _ ⟨⟩
        rfl
      · rintro _ ⟨⟩ r'
        exact decide_eq_false fun h => hid h.2
  | @completed i p s hp hs =>
    by_cases hid : p.session = id
    · subst hid
      rw [session?, hself]
      exact .completed hp rfl hs
    · rw [session?, hother hid]
      refine .aside ?_ ?_ (by simp)
      · rintro _ ⟨⟩
        rfl
      · rintro _ ⟨⟩ r'
        exact decide_eq_false fun h => hid h.2
  | @asked host id' s hhost hs =>
    by_cases hid : id' = id
    · subst hid
      rw [session?, hself]
      exact .asked hhost hs _
    · rw [session?, hother hid]
      refine .aside ?_ ?_ (by simp)
      · rintro _ ⟨⟩
        rfl
      · rintro _ ⟨⟩ r'
        rfl
  | @told host r id' s token hhost hs answer hquit =>
    by_cases hid : id' = id
    · subst hid
      rw [session?, hself]
      exact .told hhost hs answer hquit
    · rw [session?, hother hid]
      refine .aside ?_ ?_ ?_
      · rintro _ ⟨⟩
        rfl
      · rintro _ ⟨⟩ r'
        rfl
      · rintro _ _ ⟨⟩ href
        rw [reference_eq hhost] at href
        exact absurd (Option.some.inj href) hid

theorem turn_serve (u : Usage) (c : Call) (id : SessionId) :
    Turn u id c (u.serve c).1 ((u.serve c).2.session? id) :=
  (served_serve u c).turn id

theorem Turn.eq_of_subject_ne (h : Turn u id c deed session?') (hne : u.subject c ≠ some id) :
    session?' = u.session? id := by
  cases h with
  | aside => rfl
  | founded | admitted => exact absurd rfl hne
  | completed hp hsession => exact absurd (by simp [subject, hp, hsession]) hne
  | asked hhost => exact absurd hhost hne
  | told hhost => exact absurd (reference_eq hhost) hne

/-! ## What a command does -/

section Told

variable {e : Engine} {token : String} {now : Nat}

theorem continues_told : s.Continues (e.told s r id token now) := by
  have hcheck := s.continues_checkTime e.options.timeLimit now
  by_cases hrun : (s.checkTime e.options.timeLimit now).isRunning
  · rw [told_of_running hrun]
    exact hcheck.trans (continues_obey e _ r id token)
  · rw [told_of_not_running hrun]
    exact hcheck

theorem expected_told : (e.told s r id token now).expected = s.expected := by
  by_cases hrun : (s.checkTime e.options.timeLimit now).isRunning
  · rw [told_of_running hrun]
    rcases obey_cases e (s.checkTime e.options.timeLimit now) r id token with h | h | ⟨p, h⟩ <;>
      rw [h] <;> rfl
  · rw [told_of_not_running hrun]
    rfl

theorem map_fst_told : (e.told s r id token now).agents.map Prod.fst = s.agents.map Prod.fst := by
  by_cases hrun : (s.checkTime e.options.timeLimit now).isRunning
  · rw [told_of_running hrun]
    rcases obey_cases e (s.checkTime e.options.timeLimit now) r id token with h | h | ⟨p, h⟩ <;>
      rw [h]
    · rfl
    · rfl
    · exact Session.map_fst_setPose
  · rw [told_of_not_running hrun]
    rfl

end Told

/-! ## What stays of a session -/

theorem Turn.isSome (h : Turn u id c deed session?') (hs : (u.session? id).isSome) :
    session?'.isSome := by
  cases h with
  | aside => exact hs
  | founded | admitted | completed | asked | told => rfl

theorem Turn.isSome_of_admits {d : Deed} (h : Turn u id c (some d) session?')
    (hd : d.admits r id) : session?'.isSome := by
  cases h with
  | aside _ hadmits =>
    rw [hadmits d rfl r] at hd
    cases hd
  | founded | admitted | completed | asked | told => rfl

/-- Nobody can join the session yet, and nobody is in it. -/
structure Unmade (s : Session) : Prop where
  closed : s.available = false
  agents : s.agents = []
  begunAt : s.begunAt = none

theorem Unmade.checkTime (h : Unmade s) (limit : Option Nat) (now : Nat) :
    Unmade (s.checkTime limit now) :=
  ⟨h.closed, h.agents, h.begunAt⟩

theorem Unmade.told (h : Unmade s) (e : Engine) (r : Role) (id : SessionId) (token : String)
    (now : Nat) : Unmade (e.told s r id token now) := by
  have hcontinues : s.Continues (e.told s r id token now) := continues_told
  have hmap : (e.told s r id token now).agents.map Prod.fst = s.agents.map Prod.fst := map_fst_told
  rw [h.agents] at hmap
  exact ⟨hcontinues.available.trans h.closed, List.map_eq_nil_iff.mp hmap,
    hcontinues.begunAt.trans h.begunAt⟩

theorem Turn.unmade (h : Turn u id c deed session?') (hs : u.session? id = some s)
    (hunmade : Unmade s) (hdeed : ∀ p, p.session = id → deed ≠ some (.created p (.ok ()))) :
    ∃ s', session?' = some s' ∧ Unmade s' := by
  cases h with
  | aside => exact ⟨s, hs, hunmade⟩
  | founded _ _ hnone =>
    rw [hs] at hnone
    cases hnone
  | admitted hs' havail =>
    obtain rfl := Option.some.inj (hs.symm.trans hs')
    rw [hunmade.closed] at havail
    cases havail
  | completed _ hsession => exact absurd rfl (hdeed _ hsession)
  | asked _ hs' =>
    obtain rfl := Option.some.inj (hs.symm.trans hs')
    exact ⟨_, rfl, hunmade.checkTime _ _⟩
  | told _ hs' =>
    obtain rfl := Option.some.inj (hs.symm.trans hs')
    exact ⟨_, rfl, hunmade.told _ _ _ _ _⟩

/-! ## Hosts and creations -/

theorem Served.host_cases {host : Nat} (h : Served u c deed u')
    (hhost : u'.hosts[host]? = some ⟨r, some id⟩) :
    u.hosts[host]? = some ⟨r, some id⟩ ∨ u.hosts[host]? = some ⟨r, none⟩ ∧
      ((∃ sceneRoles poolSize r', c = .join host sceneRoles poolSize r' id ∧
          deed = some (.joined host r' id (.ok ()))) ∨
        ∃ i p, u.underway i = some p ∧ p.host = host ∧ p.session = id ∧
          deed = some (.created p (.ok ()))) := by
  -- Of the hosts only the one that joins changes, if it has joined no session before.
  have hmodify : ∀ {host' id'}, (u.hosts.modify host' (·.afterJoin id' (.ok ())))[host]? =
      some ⟨r, some id⟩ → u.hosts[host]? = some ⟨r, some id⟩ ∨
        host' = host ∧ id' = id ∧ u.hosts[host]? = some ⟨r, none⟩ := by
    intro host' id' hmod
    rw [List.getElem?_modify] at hmod
    obtain ⟨⟨r', session⟩, hold, hnew⟩ := Option.map_eq_some_iff.mp hmod
    split_ifs at hnew with heq
    · cases session with
      | none =>
        cases hnew
        exact .inr ⟨heq, rfl, hold⟩
      | some id₀ =>
        cases hnew
        exact .inl hold
    · exact .inl (hnew ▸ hold)
  cases h with
  | idle _ _ _ _ _ hhosts => exact .inl (hhosts ▸ hhost)
  | entered r' =>
    left
    change (u.hosts ++ [Host.ofRole r'])[host]? = _ at hhost
    rcases Nat.lt_trichotomy host u.hosts.length with hlt | rfl | hgt
    · rwa [List.getElem?_append_left hlt] at hhost
    · rw [List.getElem?_concat_length] at hhost
      cases hhost
    · rw [List.getElem?_eq_none (by simp; omega)] at hhost
      cases hhost
  | founded | asked | told => exact .inl hhost
  | admitted =>
    refine (hmodify hhost).imp_right ?_
    rintro ⟨rfl, rfl, hold⟩
    exact ⟨hold, .inl ⟨_, _, _, rfl, rfl⟩⟩
  | @completed i p s hp =>
    refine (hmodify hhost).imp_right ?_
    rintro ⟨hpost, hsession, hold⟩
    exact ⟨hold, .inr ⟨i, p, hp, hpost, hsession, rfl⟩⟩

theorem reference_eq_some_iff {host : Nat} :
    u.reference host = some id ↔ ∃ r, u.hosts[host]? = some ⟨r, some id⟩ := by
  unfold reference
  rw [Option.bind_eq_some_iff]
  constructor
  · rintro ⟨⟨r, session⟩, hhost, rfl⟩
    exact ⟨r, hhost⟩
  · rintro ⟨r, hhost⟩
    exact ⟨_, hhost, rfl⟩

theorem Served.underway_cases {i : Nat} {p : Creation} (h : Served u c deed u')
    (hp : u'.underway i = some p) :
    u.underway i = some p ∧ (∀ q, deed = some (.created q (.ok ())) →
        ∃ j, j ≠ i ∧ u.underway j = some q) ∨
      i = u.side.length ∧ deed = some (.creating .creator p) := by
  cases h with
  | idle hdeed _ _ _ _ _ hside =>
    refine .inl ⟨hside i p hp, ?_⟩
    rintro q rfl
    have hadmits := (hdeed _ rfl).admits .creator q.session
    simp [Deed.admits] at hadmits
  | entered | admitted | asked | told => exact .inl ⟨hp, by simp⟩
  | founded =>
    rcases underway_append_creating.mp hp with hold | ⟨hi, rfl⟩
    · exact .inl ⟨hold, by simp⟩
    · exact .inr ⟨hi, rfl⟩
  | @completed j q s hq =>
    obtain ⟨hne, hold⟩ := underway_set_answered.mp hp
    refine .inl ⟨hold, ?_⟩
    rintro _ ⟨⟩
    exact ⟨j, Ne.symm hne, hq⟩

theorem Served.creating {p : Creation} (h : Served u c (some (.creating r p)) u') :
    p.host < u.hosts.length ∧ u.session? p.session = none ∧
      ∃ sceneRoles poolSize, c = .join p.host sceneRoles poolSize .creator p.session := by
  cases h with
  | idle hdeed =>
    have hstarts := (hdeed _ rfl).starts p.session
    simp [Deed.starts] at hstarts
  | founded hhost _ hnone => exact ⟨hhost, hnone, _, _, rfl⟩

/-! ## The state at any time -/

/-- A creation goes on for a session of its own that nobody can join yet, and hosts refer to
sessions that are there. -/
structure Sane (u : Usage) : Prop where
  unmade : ∀ id s, u.session? id = some s → s.available = false → Unmade s
  pending : ∀ i p, u.underway i = some p → ∃ s, u.session? p.session = some s ∧ Unmade s
  distinct : ∀ i j p q, u.underway i = some p → u.underway j = some q → p.session = q.session →
    i = j
  housed : ∀ host id, u.reference host = some id → (u.session? id).isSome
  hosted : ∀ i p, u.underway i = some p → p.host < u.hosts.length

theorem sane_fresh (grid : Grid) (start finish : Cell) (options : Options) :
    Sane (fresh grid start finish options) where
  unmade id s hs := by simp [session?, Engine.session?, fresh, ofEngine, ofMaze] at hs
  pending i p hp := by simp [underway, fresh, ofEngine] at hp
  distinct i j p q hp := by simp [underway, fresh, ofEngine] at hp
  housed host id hhost := by simp [reference, fresh, ofEngine] at hhost
  hosted i p hp := by simp [underway, fresh, ofEngine] at hp

theorem Sane.unmade_of_underway {i : Nat} {p : Creation} (h : Sane u) (hp : u.underway i = some p)
    (hs : u.session? p.session = some s) : Unmade s := by
  obtain ⟨s₀, hs₀, hunmade⟩ := h.pending i p hp
  obtain rfl := Option.some.inj (hs.symm.trans hs₀)
  exact hunmade

theorem Turn.unmade_of_closed (h : Turn u id c deed (some s))
    (hunmade : ∀ s, u.session? id = some s → s.available = false → Unmade s)
    (hclosed : s.available = false) : Unmade s := by
  generalize hnew : some s = session?' at h
  cases h with
  | aside => exact hunmade s hnew.symm hclosed
  | founded =>
    cases hnew
    exact ⟨rfl, rfl, rfl⟩
  | @admitted _ _ _ r s₀ hs havail =>
    cases hnew
    change s₀.available = false at hclosed
    rw [havail] at hclosed
    cases hclosed
  | completed =>
    cases hnew
    cases hclosed
  | asked _ hs =>
    cases hnew
    exact (hunmade _ hs hclosed).checkTime _ _
  | @told _ r s₀ token _ hs =>
    cases hnew
    have hcontinues : s₀.Continues (u.engine.told s₀ r id token u.now) := continues_told
    exact (hunmade s₀ hs (hcontinues.available.symm.trans hclosed)).told _ _ _ _ _

theorem Served.sane (hserved : Served u c deed u') (h : Sane u) : Sane u' := by
  have hturn := hserved.turn
  constructor
  case unmade =>
    intro id s hs hclosed
    have hturn := hturn id
    rw [hs] at hturn
    exact hturn.unmade_of_closed (h.unmade id) hclosed
  case pending =>
    intro i p hp
    rcases hserved.underway_cases hp with ⟨hold, hdone⟩ | ⟨-, rfl⟩
    · obtain ⟨s, hs, hunmade⟩ := h.pending i p hold
      refine (hturn p.session).unmade hs hunmade ?_
      rintro q hq rfl
      obtain ⟨j, hne, hj⟩ := hdone q rfl
      exact hne (h.distinct j i q p hj hold hq)
    · have hturn := hturn p.session
      generalize u'.session? p.session = session?' at hturn
      cases hturn with
      | aside hstarts => simp [Deed.starts] at hstarts
      | founded => exact ⟨_, rfl, rfl, rfl, rfl⟩
  case distinct =>
    -- A creation that has just been started is for a session that was not there.
    have hnew : ∀ i p q, u.underway i = some p → deed = some (.creating .creator q) →
        p.session ≠ q.session := by
      rintro i p q hp rfl heq
      obtain ⟨s, hs, -⟩ := h.pending i p hp
      obtain ⟨-, hnone, -⟩ := hserved.creating
      rw [← heq, hs] at hnone
      cases hnone
    intro i j p q hp hq heq
    rcases hserved.underway_cases hp with ⟨hp, -⟩ | ⟨hi, hp⟩
    · rcases hserved.underway_cases hq with ⟨hq, -⟩ | ⟨hj, hq⟩
      · exact h.distinct i j p q hp hq heq
      · exact absurd heq (hnew i p q hp hq)
    · rcases hserved.underway_cases hq with ⟨hq, -⟩ | ⟨hj, -⟩
      · exact absurd heq.symm (hnew j q p hq hp)
      · rw [hi, hj]
  case housed =>
    intro host id hhost
    obtain ⟨r, hhost⟩ := reference_eq_some_iff.mp hhost
    rcases hserved.host_cases hhost with hold | ⟨-, hjoined⟩
    · exact (hturn id).isSome (h.housed host id (reference_eq_some_iff.mpr ⟨r, hold⟩))
    · rcases hjoined with ⟨_, _, r', -, rfl⟩ | ⟨_, p, -, -, hsession, rfl⟩
      · exact (hturn id).isSome_of_admits (decide_eq_true (⟨rfl, rfl⟩ : r' = r' ∧ id = id))
      · exact (hturn id).isSome_of_admits (decide_eq_true ⟨rfl, hsession⟩)
  case hosted =>
    intro i p hp
    have hlength : u'.hosts.length = (u.roles ++ c.entrant.toList).length := by
      rw [← hserved.roles]
      exact (List.length_map Host.role).symm
    rw [hlength, List.length_append, Usage.roles, List.length_map]
    apply Nat.lt_add_right
    rcases hserved.underway_cases hp with ⟨hold, -⟩ | ⟨-, rfl⟩
    · exact h.hosted i p hold
    · exact hserved.creating.1

theorem Sane.after (h : Sane u) (calls : List Call) : Sane (u.after calls) := by
  induction calls generalizing u with
  | nil => exact h
  | cons c calls ih => exact ih ((served_serve u c).sane h)

end Labyrinth.Engine.Usage

import Labyrinth.Proofs.Engine.Queries

/-!
# Lifetimes

When a session begins and how long it runs can be read off the log of the calls at any time, without
regard to when the session notices that its time is up.
-/

namespace Labyrinth.Engine

variable {log : List Entry} {e : Entry} {id : SessionId} {limit : Option Nat}
  {now t n host : Nat} {s s' : Session} {r : Role}

/-! ## What the log tells of a session -/

/-- The role that comes into the session. -/
def Deed.arrival? (id : SessionId) : Deed → Option Role
  | .joined _ r id' (.ok ()) => if id' = id then some r else none
  | .created c (.ok ()) => if c.session = id then some .creator else none
  | _ => none

/-- How many roles the session waits for whose creation the entry starts. -/
def Entry.founds? (id : SessionId) : Entry → Option Nat
  | ⟨_, .join _ sceneRoles _ _ _, some (.creating _ c)⟩ =>
    if c.session = id then some sceneRoles else none
  | _ => none

def Entry.arrival? (id : SessionId) (e : Entry) : Option (Role × Nat) :=
  (e.deed.bind (·.arrival? id)).map (·, e.time)

/-- How many roles the session waits for. -/
def awaited (log : List Entry) (id : SessionId) : Option Nat := log.findSome? (·.founds? id)

/-- The roles that have joined the session, and when. -/
def arrivals (log : List Entry) (id : SessionId) : List (Role × Nat) :=
  log.filterMap (·.arrival? id)

/-- When the last of the roles joined that the session waits for. -/
def beginning (log : List Entry) (id : SessionId) : Option Nat :=
  (awaited log id).bind fun n => (arrivals log id)[n - 1]?.map Prod.snd

/-- The session has begun, and its time is not up. -/
def Lasting (limit : Option Nat) (id : SessionId) (log : List Entry) (now : Nat) : Prop :=
  ∃ begun, beginning log id = some begun ∧ ∀ l ∈ limit, now - begun < l

/-- A host that is in the session has its quit accepted, and the session meets the condition then. -/
def QuitWhile (condition : List Entry → Nat → Prop) (id : SessionId) (before : List Entry)
    (e : Entry) : Prop :=
  ∃ host, e.call = .send host Command.quitToken ∧
    e.deed = some (.sent host Command.quitToken (.ok ())) ∧
    reference (deeds before) host = some id ∧ condition before e.time

/-- Nobody has quit the session during its time. -/
def Unquit (limit : Option Nat) (id : SessionId) : List Entry → Prop :=
  Lawful fun before e => ¬ QuitWhile (Lasting limit id) id before e

/-- The session is running: it has begun, its time is not up and nobody has quit. -/
def Running (limit : Option Nat) (id : SessionId) (log : List Entry) (now : Nat) : Prop :=
  Lasting limit id log now ∧ Unquit limit id log

/-! ## One more entry -/

theorem awaited_snoc : awaited (log ++ [e]) id = (awaited log id).or (e.founds? id) := by
  simp [awaited]

theorem arrivals_snoc : arrivals (log ++ [e]) id = arrivals log id ++ (e.arrival? id).toList := by
  unfold arrivals
  rw [List.filterMap_append, List.filterMap_cons]
  cases e.arrival? id <;> rfl

theorem unquit_snoc : Unquit limit id (log ++ [e]) ↔
    Unquit limit id log ∧ ¬ QuitWhile (Lasting limit id) id log e := by
  constructor
  · intro h
    exact ⟨h.of_append, h log e [] rfl⟩
  · rintro ⟨h, hnot⟩
    exact Lawful.snoc h hnot

/-- Nobody quits unless the session is running: a quit that comes later does not count. -/
theorem unquit_iff : Unquit limit id log ↔
    Lawful (fun before e => ¬ QuitWhile (Running limit id) id before e) log := by
  have hweaken : ∀ before e, QuitWhile (Running limit id) id before e →
      QuitWhile (Lasting limit id) id before e := by
    rintro before e ⟨host, hcall, hdeed, href, hrunning⟩
    exact ⟨host, hcall, hdeed, href, hrunning.1⟩
  induction log using List.reverseRecOn with
  | nil => exact iff_of_true lawful_nil lawful_nil
  | append_singleton log e ih =>
    rw [unquit_snoc]
    constructor
    · rintro ⟨h, hnot⟩
      exact (ih.mp h).snoc fun hquit => hnot (hweaken _ _ hquit)
    · intro h
      have hunquit := ih.mpr h.of_append
      refine ⟨hunquit, ?_⟩
      rintro ⟨host, hcall, hdeed, href, hlasting⟩
      exact h log e [] rfl ⟨host, hcall, hdeed, href, hlasting, hunquit⟩

theorem founds?_eq_none (h : ∀ d ∈ e.deed, d.starts id = false) : e.founds? id = none := by
  unfold Entry.founds?
  split
  · rename_i c
    have hstarts := h _ rfl
    exact if_neg (of_decide_eq_false hstarts)
  · rfl

theorem arrival?_eq_none (h : ∀ d ∈ e.deed, ∀ r, d.admits r id = false) :
    e.arrival? id = none := by
  unfold Entry.arrival?
  rw [Option.map_eq_none_iff, Option.bind_eq_none_iff]
  intro d hd
  have hadmits := h d hd
  unfold Deed.arrival?
  split
  · rename_i r id'
    have hnot := hadmits r
    simp only [Deed.admits, true_and, decide_eq_false_iff_not] at hnot
    exact if_neg hnot
  · have hnot := hadmits .creator
    simp only [Deed.admits, true_and, decide_eq_false_iff_not] at hnot
    exact if_neg hnot
  · rfl

theorem beginning_snoc_of_quiet (hfounds : e.founds? id = none) (harrival : e.arrival? id = none) :
    beginning (log ++ [e]) id = beginning log id := by
  unfold beginning
  rw [awaited_snoc, arrivals_snoc, hfounds, harrival, Option.or_none]
  simp

/-! ## Sessions of which the log tells -/

/-- The session is as the log says. What it has noticed is true. -/
structure Documented (limit : Option Nat) (id : SessionId) (log : List Entry) (now : Nat)
    (s : Session) : Prop where
  awaited : awaited log id = some s.expected
  pos : 0 < s.expected
  inside : s.agents.map Prod.fst = (arrivals log id).map Prod.fst
  nodup : ((arrivals log id).map Prod.fst).Nodup
  begunAt : s.begunAt = beginning log id
  ended : s.ended → ¬ Unquit limit id log ∨ s.isOver limit now
  quit : ¬ Unquit limit id log → s.ended

/-- What holds of a session that is there or not. -/
structure Recorded (limit : Option Nat) (id : SessionId) (log : List Entry) (now : Nat)
    (session? : Option Session) : Prop where
  absent : session? = none →
    Engine.awaited log id = none ∧ arrivals log id = [] ∧ Unquit limit id log
  present : ∀ s, session? = some s → Documented limit id log now s

theorem not_lasting_of_awaited (h : awaited log id = none) : ¬ Lasting limit id log now := by
  rintro ⟨begun, hbegun, -⟩
  unfold beginning at hbegun
  rw [h] at hbegun
  cases hbegun

theorem isOver_eq_false_iff {b : Nat} (hb : s.begunAt = some b) :
    s.isOver limit now = false ↔ ∀ l ∈ limit, now - b < l := by
  unfold Session.isOver
  rw [hb]
  cases limit with
  | none => simp
  | some l => simp

theorem lasting_iff (hbegun : s.begunAt = beginning log id) :
    Lasting limit id log now ↔ s.begunAt.isSome ∧ s.isOver limit now = false := by
  unfold Lasting
  rw [← hbegun]
  cases hb : s.begunAt with
  | none => simp
  | some b =>
    rw [isOver_eq_false_iff hb]
    simp

namespace Documented

theorem isRunning_iff (h : Documented limit id log now s) (hle : now ≤ t) :
    (s.checkTime limit t).isRunning ↔ Running limit id log t := by
  rw [Session.isRunning_checkTime]
  unfold Running
  rw [lasting_iff h.begunAt]
  constructor
  · rintro ⟨hbegun, hended, hover⟩
    refine ⟨⟨hbegun, hover⟩, ?_⟩
    by_contra hquit
    rw [h.quit hquit] at hended
    cases hended
  · rintro ⟨⟨hbegun, hover⟩, hunquit⟩
    refine ⟨hbegun, ?_, hover⟩
    apply Bool.eq_false_iff.mpr
    intro hended
    rcases h.ended hended with hquit | hnow
    · exact hquit hunquit
    · rw [Session.isOver_mono hle hnow] at hover
      cases hover

theorem snoc (h : Documented limit id log now s) (hfounds : e.founds? id = none)
    (harrival : e.arrival? id = none) (hexpected : s'.expected = s.expected)
    (hinside : s'.agents.map Prod.fst = s.agents.map Prod.fst) (hbegun : s'.begunAt = s.begunAt)
    (hended : s'.ended → ¬ Unquit limit id (log ++ [e]) ∨ s'.isOver limit now)
    (hquit : ¬ Unquit limit id (log ++ [e]) → s'.ended) :
    Documented limit id (log ++ [e]) now s' where
  awaited := by rw [awaited_snoc, hfounds, Option.or_none, h.awaited, hexpected]
  pos := by
    rw [hexpected]
    exact h.pos
  inside := by rw [hinside, h.inside, arrivals_snoc, harrival, Option.toList_none, List.append_nil]
  nodup := by
    rw [arrivals_snoc, harrival, Option.toList_none, List.append_nil]
    exact h.nodup
  begunAt := by rw [hbegun, h.begunAt, beginning_snoc_of_quiet hfounds harrival]
  ended := hended
  quit := hquit

theorem later (h : Documented limit id log now s) (hle : now ≤ t) :
    Documented limit id log t s :=
  { h with ended := fun hended => (h.ended hended).imp_right (Session.isOver_mono hle) }

theorem aside (h : Documented limit id log now s) (hfounds : e.founds? id = none)
    (harrival : e.arrival? id = none) (hnot : ¬ QuitWhile (Lasting limit id) id log e) :
    Documented limit id (log ++ [e]) now s := by
  have hunquit : Unquit limit id (log ++ [e]) ↔ Unquit limit id log := by
    rw [unquit_snoc]
    exact and_iff_left hnot
  refine h.snoc hfounds harrival rfl rfl rfl ?_ ?_
  · rw [hunquit]
    exact h.ended
  · rw [hunquit]
    exact h.quit

theorem checkTime (h : Documented limit id log now s) :
    Documented limit id log now (s.checkTime limit now) where
  awaited := h.awaited
  pos := h.pos
  inside := h.inside
  nodup := h.nodup
  begunAt := h.begunAt
  ended hended := by
    rcases Bool.or_eq_true_iff.mp hended with hended | hover
    · exact h.ended hended
    · exact .inr hover
  quit hquit := Bool.or_eq_true_iff.mpr (.inl (h.quit hquit))

theorem enrol (available : Bool) {p : Pose} (h : Documented limit id log now s)
    (hout : s.agent? r = none) (hfounds : e.founds? id = none)
    (harrival : e.arrival? id = some (r, now))
    (hnot : ¬ QuitWhile (Lasting limit id) id log e) :
    Documented limit id (log ++ [e]) now ({ s with available }.enrol r p now) := by
  have harrivals : arrivals (log ++ [e]) id = arrivals log id ++ [(r, now)] := by
    rw [arrivals_snoc, harrival]
    rfl
  have hagents : ({ s with available }.enrol r p now).agents = s.agents ++ [(r, p)] := by
    unfold Session.enrol
    dsimp only
    rw [Session.filter_agents hout]
  have hawaited : Engine.awaited (log ++ [e]) id = some s.expected := by
    rw [awaited_snoc, hfounds, Option.or_none, h.awaited]
  have hunquit : Unquit limit id (log ++ [e]) ↔ Unquit limit id log := by
    rw [unquit_snoc]
    exact and_iff_left hnot
  have hlength : s.agents.length = (arrivals log id).length := by
    simpa using congrArg List.length h.inside
  have hpos := h.pos
  have hbefore : s.begunAt = (arrivals log id)[s.expected - 1]?.map Prod.snd := by
    rw [h.begunAt, beginning, h.awaited]
    rfl
  have hbegunAt : ({ s with available }.enrol r p now).begunAt = (s.begunAt <|>
      if s.expected ≤ (s.agents ++ [(r, p)]).length then some now else none) := by
    rw [← hagents]
    rfl
  have hbegun : ({ s with available }.enrol r p now).begunAt = beginning (log ++ [e]) id := by
    rw [hbegunAt, beginning, hawaited, Option.bind_some, harrivals, List.length_append,
      List.length_singleton, hlength]
    -- The newcomer is late, the last one, or still waits for others.
    rcases Nat.lt_trichotomy (s.expected - 1) (arrivals log id).length with hlt | heq | hgt
    · rw [List.getElem?_append_left hlt, ← hbefore]
      rw [List.getElem?_eq_getElem hlt] at hbefore
      rw [hbefore]
      rfl
    · have hnone : s.begunAt = none := by
        rw [hbefore, List.getElem?_eq_none (Nat.le_of_eq heq.symm)]
        rfl
      rw [hnone, heq, List.getElem?_concat_length, if_pos (by omega)]
      rfl
    · have hnone : s.begunAt = none := by
        rw [hbefore, List.getElem?_eq_none (Nat.le_of_lt hgt)]
        rfl
      rw [hnone, if_neg (by omega), List.getElem?_eq_none (by simp; omega)]
      rfl
  constructor
  case awaited => exact hawaited
  case pos => exact h.pos
  case inside => rw [hagents, harrivals, List.map_append, List.map_append, h.inside]; rfl
  case nodup =>
    rw [harrivals, List.map_append, ← h.inside]
    have hmem : r ∉ s.agents.map Prod.fst := by
      rw [← Session.agent?_isSome_iff, hout]
      simp
    have hnodup := h.nodup
    rw [← h.inside] at hnodup
    have hconcat := hnodup.concat hmem
    rwa [List.concat_eq_append] at hconcat
  case begunAt => exact hbegun
  case ended =>
    rw [hunquit]
    intro hended
    apply (h.ended hended).imp_right
    intro hover
    obtain ⟨b, hb⟩ := Option.isSome_iff_exists.mp (Session.isSome_begunAt_of_isOver hover)
    have hsame : ({ s with available }.enrol r p now).begunAt = s.begunAt := by
      rw [hbegunAt, hb]
      rfl
    unfold Session.isOver at hover ⊢
    rwa [hsame]
  case quit =>
    rw [hunquit]
    exact h.quit

theorem told {engine : Engine} {token : String} {answer : Except String Unit}
    (h : Documented engine.options.timeLimit id log now s)
    (href : reference (deeds log) host = some id)
    (hquit : token = Command.quitToken → answer = .ok ()) :
    Documented engine.options.timeLimit id
      (log ++ [⟨now, .send host token, some (.sent host token answer)⟩]) now
      (engine.told s r id token now) := by
  have hquits : QuitWhile (Lasting engine.options.timeLimit id) id log
      ⟨now, .send host token, some (.sent host token answer)⟩ ↔
        token = Command.quitToken ∧ Lasting engine.options.timeLimit id log now := by
    constructor
    · rintro ⟨host', hcall, -, -, hlasting⟩
      exact ⟨(Call.send.inj hcall).2, hlasting⟩
    · rintro ⟨rfl, hlasting⟩
      rw [hquit rfl]
      exact ⟨host, rfl, rfl, href, hlasting⟩
  have hrunning := h.isRunning_iff (Nat.le_refl now)
  refine h.snoc rfl rfl Usage.expected_told Usage.map_fst_told Usage.continues_told.begunAt ?_ ?_
  all_goals rw [unquit_snoc, hquits]
  · by_cases hrun : (s.checkTime engine.options.timeLimit now).isRunning
    · rw [told_of_running hrun]
      intro hended
      left
      rintro ⟨-, hnot⟩
      by_cases htoken : token = Command.quitToken
      · exact hnot ⟨htoken, (hrunning.mp hrun).1⟩
      · rw [Usage.ended_obey_of_ne htoken] at hended
        simp [Session.isRunning, hended] at hrun
    · rw [told_of_not_running hrun]
      intro hended
      apply (h.checkTime.ended hended).imp_left
      intro hquit hunquit
      exact hquit hunquit.1
  · intro hnot
    by_cases hrun : (s.checkTime engine.options.timeLimit now).isRunning
    · rw [told_of_running hrun]
      obtain ⟨hlasting, hunquit⟩ := hrunning.mp hrun
      have htoken : token = Command.quitToken := by
        by_contra hne
        exact hnot ⟨hunquit, fun hquit => hne hquit.1⟩
      rw [htoken, obey_quitToken]
    · rw [told_of_not_running hrun]
      apply h.checkTime.quit
      intro hunquit
      apply hnot
      refine ⟨hunquit, ?_⟩
      rintro ⟨-, hlasting⟩
      exact hrun (hrunning.mpr ⟨hlasting, hunquit⟩)

end Documented

/-! ## The log of a run -/

namespace Usage

variable {u u' : Usage} {c : Call} {deed : Option Deed} {session?' : Option Session}

theorem Served.reference {host : Nat} (h : Served u c deed u') (hsane : Sane u) :
    u'.reference host = (u.reference host).or (deed.bind (·.entry host)) := by
  -- The host that has joined refers to the session, unless it refers to another one.
  have hjoined : ∀ {host' id}, host' < u.hosts.length →
      (u.hosts.modify host' (·.afterJoin id (.ok ())))[host]?.bind Host.session =
        (u.reference host).or (if host' = host then some id else none) := by
    intro host' id hlt
    unfold Usage.reference
    rw [List.getElem?_modify]
    by_cases heq : host' = host
    · subst heq
      rw [List.getElem?_eq_getElem hlt]
      simp [Host.afterJoin]
    · simp [heq]
  cases h with
  | idle hdeed _ _ _ _ hhosts =>
    have hnone : deed.bind (·.entry host) = none := by
      apply Option.bind_eq_none_iff.mpr
      intro d hd
      by_contra hsome
      obtain ⟨id, hid⟩ := Option.ne_none_iff_exists'.mp hsome
      obtain ⟨r, hr⟩ := Deed.exists_admits_of_entry hid
      rw [(hdeed d hd).admits] at hr
      cases hr
    rw [hnone, Option.or_none, Usage.reference, hhosts]
    rfl
  | entered r =>
    change (u.hosts ++ [Host.ofRole r])[host]?.bind Host.session = (u.reference host).or none
    rw [Option.or_none]
    unfold Usage.reference
    rcases Nat.lt_trichotomy host u.hosts.length with hlt | rfl | hgt
    · rw [List.getElem?_append_left hlt]
    · rw [List.getElem?_concat_length, List.getElem?_eq_none (Nat.le_refl _)]
      rfl
    · rw [List.getElem?_eq_none (by simp; omega), List.getElem?_eq_none (Nat.le_of_lt hgt)]
  | founded | asked | told => exact Option.or_none.symm
  | admitted hhost => exact hjoined hhost
  | completed hp => exact hjoined (hsane.hosted _ _ hp)

/-- The log tells of everything that can be seen of the engine. -/
structure Chronicled (u : Usage) (log : List Entry) : Prop where
  sane : Sane u
  reference : ∀ host, u.reference host = Engine.reference (deeds log) host
  recorded : ∀ id, Recorded u.limit id log u.now (u.session? id)

theorem chronicled_fresh (grid : Grid) (start finish : Cell) (options : Options) :
    Chronicled (fresh grid start finish options) [] where
  sane := sane_fresh grid start finish options
  reference host := rfl
  recorded id := by
    have hnone : (fresh grid start finish options).session? id = none := by
      simp [session?, Engine.session?, fresh, ofEngine, ofMaze]
    rw [hnone]
    exact ⟨fun _ => ⟨rfl, rfl, lawful_nil⟩, by simp⟩

theorem Turn.recorded (h : Turn u id c deed session?') (hsane : Sane u)
    (href : ∀ host, u.reference host = Engine.reference (deeds log) host)
    (hlog : Recorded u.limit id log u.now (u.session? id)) (hle : u.now ≤ t) :
    Recorded u.limit id (log ++ [⟨u.now, c, deed⟩]) t session?' := by
  have hthere : ∀ s, Documented u.limit id (log ++ [⟨u.now, c, deed⟩]) u.now s →
      Recorded u.limit id (log ++ [⟨u.now, c, deed⟩]) t (some s) := by
    intro s h
    constructor
    · intro hnone
      cases hnone
    · rintro _ ⟨⟩
      exact h.later hle
  have hnotQuit : (∀ host, c ≠ .send host Command.quitToken) →
      ¬ QuitWhile (Lasting u.limit id) id log ⟨u.now, c, deed⟩ := by
    rintro hne ⟨host, hcall, -⟩
    exact hne host hcall
  cases h with
  | aside hstarts hadmits hsend =>
    have hfounds : Entry.founds? id ⟨u.now, c, deed⟩ = none := founds?_eq_none hstarts
    have harrival : Entry.arrival? id ⟨u.now, c, deed⟩ = none := arrival?_eq_none hadmits
    constructor
    · intro hnone
      obtain ⟨hawaited, harrivals, hunquit⟩ := hlog.absent hnone
      refine ⟨?_, ?_, unquit_snoc.mpr ⟨hunquit, ?_⟩⟩
      · rw [awaited_snoc, hawaited, hfounds]
        rfl
      · rw [arrivals_snoc, harrivals, harrival]
        rfl
      · rintro ⟨-, -, -, -, hlasting⟩
        exact not_lasting_of_awaited hawaited hlasting
    · intro s hs
      have hnot : ¬ QuitWhile (Lasting u.limit id) id log ⟨u.now, c, deed⟩ := by
        rintro ⟨host, hcall, -, hhost, -⟩
        rw [hsend host _ hcall ((href host).trans hhost)] at hs
        cases hs
      exact ((hlog.present s hs).aside hfounds harrival hnot).later hle
  | @founded host sceneRoles poolSize p hroles hp hnone =>
    apply hthere
    obtain ⟨hawaited, harrivals, hunquit⟩ := hlog.absent hnone
    have hfounds : Entry.founds? id ⟨u.now, .join host sceneRoles poolSize .creator id,
        some (.creating .creator p)⟩ = some sceneRoles := if_pos hp
    have hstill : arrivals (log ++ [⟨u.now, .join host sceneRoles poolSize .creator id,
        some (.creating .creator p)⟩]) id = [] := by
      rw [arrivals_snoc, harrivals]
      rfl
    constructor
    case awaited =>
      rw [awaited_snoc, hawaited, hfounds]
      rfl
    case pos => exact hroles
    case inside => rw [hstill]; rfl
    case nodup => rw [hstill]; exact List.nodup_nil
    case begunAt =>
      rw [beginning, hstill]
      simp [Session.ofExpected]
    case ended =>
      intro hended
      cases hended
    case quit =>
      intro hquit
      exact absurd (unquit_snoc.mpr ⟨hunquit, hnotQuit (by simp)⟩) hquit
  | @admitted host sceneRoles poolSize r s hs havail hout =>
    apply hthere
    refine (hlog.present s hs).enrol s.available hout rfl ?_ (hnotQuit (by simp))
    simp [Entry.arrival?, Deed.arrival?]
  | @completed i p s hp hsession hs =>
    apply hthere
    subst hsession
    have hunmade := hsane.unmade_of_underway hp hs
    refine (hlog.present s hs).enrol true ?_ rfl ?_ (hnotQuit (by simp))
    · simp [Session.agent?, hunmade.agents]
    · simp [Entry.arrival?, Deed.arrival?]
  | asked hhost hs =>
    apply hthere
    exact (hlog.present _ hs).checkTime.aside rfl rfl (hnotQuit (by simp))
  | told hhost hs answer hquit =>
    apply hthere
    exact (hlog.present _ hs).told ((href _).symm.trans (reference_eq hhost)) hquit

theorem Chronicled.serve (h : Chronicled u log) (c : Call) :
    Chronicled (u.serve c).2 (log ++ [⟨u.now, c, (u.serve c).1⟩]) where
  sane := (served_serve u c).sane h.sane
  reference host := by
    rw [(served_serve u c).reference h.sane, h.reference]
    unfold deeds
    rw [List.filterMap_append, List.filterMap_cons]
    cases (u.serve c).1 with
    | none => simp
    | some d => exact reference_snoc.symm
  recorded id := by
    rw [limit_serve]
    exact (turn_serve u c id).recorded h.sane h.reference (h.recorded id)
      (served_serve u c).now_le

theorem Chronicled.after (h : Chronicled u log) (calls : List Call) :
    Chronicled (u.after calls) (log ++ u.log calls) := by
  induction calls generalizing u log with
  | nil =>
    rw [Usage.log, List.append_nil]
    exact h
  | cons c calls ih =>
    have hlater := ih (h.serve c)
    rw [List.append_assoc] at hlater
    exact hlater

/-! ## What a status tells -/

/-- What those are told who are in the session. -/
def statusOf (u : Usage) (id : SessionId) : Status := ⟨(u.begunAt? id).isSome, u.runs id⟩

theorem serve_status (h : Sane u) (hhost : u.reference host = some id) :
    (u.serve (.status host)).1 = some (.asked host (.ok (u.statusOf id))) := by
  obtain ⟨s, hs⟩ := Option.isSome_iff_exists.mp (h.housed host id hhost)
  obtain ⟨r, hhost⟩ := reference_eq_some_iff.mp hhost
  have hanswer : (u.engine.status id u.now).1 =
      .ok ⟨s.begunAt.isSome, (s.checkTime u.engine.options.timeLimit u.now).isRunning⟩ := by
    rw [status_eq hs]
  change ((u.status host).1).map (Deed.asked host) = _
  unfold Usage.status
  simp only [hhost, Host.status, hanswer, statusOf, begunAt?, runs, hs]
  rfl

/-- The statuses that a session goes through. -/
def stages : List Status := [⟨false, false⟩, ⟨true, true⟩, ⟨true, false⟩]

theorem exists_stage (u : Usage) (id : SessionId) :
    ∃ j, stages[j]? = some (u.statusOf id) ∧ ((u.begunAt? id).isSome → 1 ≤ j) := by
  unfold statusOf
  cases hrun : u.runs id with
  | true =>
    -- Whatever is running has begun.
    rw [isSome_begunAt?_of_runs hrun]
    exact ⟨1, rfl, fun _ => Nat.le_refl 1⟩
  | false =>
    cases (u.begunAt? id).isSome with
    | false => exact ⟨0, rfl, by simp⟩
    | true => exact ⟨2, rfl, fun _ => Nat.le_succ 1⟩

theorem stages_forward (u : Usage) (more : List Call) (id : SessionId) :
    ∃ i j : Nat, i ≤ j ∧ stages[i]? = some (u.statusOf id) ∧
      stages[j]? = some ((u.after more).statusOf id) := by
  obtain ⟨j, hlater, hbegunLater⟩ := exists_stage (u.after more) id
  cases hbegun : (u.begunAt? id).isSome with
  | false =>
    have hnot : u.runs id = false := by
      apply Bool.eq_false_iff.mpr
      intro hrun
      rw [isSome_begunAt?_of_runs hrun] at hbegun
      cases hbegun
    refine ⟨0, j, Nat.zero_le j, ?_, hlater⟩
    rw [statusOf, hbegun, hnot]
    rfl
  | true =>
    obtain ⟨b, hb⟩ := Option.isSome_iff_exists.mp hbegun
    have hbegunAfter : ((u.after more).begunAt? id).isSome := by
      rw [begunAt?_after hb]
      rfl
    cases hrun : u.runs id with
    | true =>
      refine ⟨1, j, hbegunLater hbegunAfter, ?_, hlater⟩
      rw [statusOf, hbegun, hrun]
      rfl
    | false =>
      have hstopped : u.Stopped id := ⟨hbegun, Bool.eq_false_iff.mp hrun⟩
      have hnever := Bool.eq_false_iff.mpr (hstopped.after more).2
      refine ⟨2, 2, Nat.le_refl 2, ?_, ?_⟩
      · rw [statusOf, hbegun, hrun]
        rfl
      · rw [statusOf, hbegunAfter, hnever]
        rfl

end Usage

theorem le_length_iff_forall_mem {roles : List Role} (hnodup : roles.Nodup)
    (hbound : ∀ r ∈ roles, r.number < n) :
    n ≤ roles.length ↔ ∀ r : Role, r.number < n → r ∈ roles := by
  have hall : ((List.range n).map Role.mk).Nodup :=
    List.nodup_range.map fun _ _ heq => Role.mk.inj heq
  have hsub : roles ⊆ (List.range n).map Role.mk := by
    intro r hr
    exact List.mem_map.mpr ⟨r.number, List.mem_range.mpr (hbound r hr), rfl⟩
  constructor
  · intro hle r hr
    have hperm := (hnodup.subperm hsub).perm_of_length_le (by simpa using hle)
    exact hperm.mem_iff.mpr (List.mem_map.mpr ⟨r.number, List.mem_range.mpr hr, rfl⟩)
  · intro hmem
    have hback : (List.range n).map Role.mk ⊆ roles := by
      intro r hr
      obtain ⟨i, hi, rfl⟩ := List.mem_map.mp hr
      exact hmem ⟨i⟩ (List.mem_range.mp hi)
    simpa using (hall.subperm hback).length_le

theorem Documented.begun_iff (h : Documented limit id log now s) :
    s.begunAt.isSome ↔ s.expected ≤ (arrivals log id).length := by
  have hpos := h.pos
  rw [h.begunAt, beginning, h.awaited, Option.bind_some, Option.isSome_map, isSome_getElem?]
  omega

/-! ## The time limit does not show -/

/-- After the calls nothing that can be seen depends on when a session noticed that its time was
up. -/
structure Eager (u : Usage) (calls : List Call) : Prop where
  /-- With any queries put in, the calls are answered as they are without them, and the poses are
  the same in the end. -/
  unnoticed : ∀ marked : List (Call × Bool), Usage.kept marked = calls →
    (∀ c, (c, false) ∈ marked → c.isQuery) →
    u.keptLog marked = u.log calls ∧
      ∀ id r, (u.after (marked.map Prod.fst)).pose? id r = (u.after calls).pose? id r
  /-- Who is in a session is told whether as many roles have joined as it waits for, and whether it
  is running. -/
  status : ∀ host id, (u.after calls).reference host = some id → ∃ n status,
    awaited (u.log calls) id = some n ∧
      ((u.after calls).serve (.status host)).1 = some (.asked host (.ok status)) ∧
      (status.hasBegun ↔ n ≤ (arrivals (u.log calls) id).length) ∧
      (status.isRunning ↔ Running u.limit id (u.log calls) (u.after calls).now)
  /-- If nobody else joins, as many have joined when all that are waited for have. -/
  everyone : ∀ id n, awaited (u.log calls) id = some n →
    (∀ r ∈ (arrivals (u.log calls) id).map Prod.fst, r.number < n) →
    (n ≤ (arrivals (u.log calls) id).length ↔
      ∀ r : Role, r.number < n → r ∈ (arrivals (u.log calls) id).map Prod.fst)
  /-- A quit counts that is accepted while the session is running. -/
  quits : ∀ id, Unquit u.limit id (u.log calls) ↔
    Lawful (fun before e => ¬ QuitWhile (Running u.limit id) id before e) (u.log calls)
  /-- What hosts are told one after another goes through the stages and never back. -/
  forward : ∀ more host host' id s s', (u.after calls).reference host = some id →
    ((u.after calls).serve (.status host)).1 = some (.asked host (.ok s)) →
    ((u.after calls).after more).reference host' = some id →
    (((u.after calls).after more).serve (.status host')).1 = some (.asked host' (.ok s')) →
    ∃ i j : Nat, i ≤ j ∧ Usage.stages[i]? = some s ∧ Usage.stages[j]? = some s'

theorem eager (grid : Grid) (start finish : Cell) (options : Options) (calls : List Call) :
    Eager (.fresh grid start finish options) calls := by
  have hchronicled := (Usage.chronicled_fresh grid start finish options).after calls
  rw [List.nil_append] at hchronicled
  have hsane := hchronicled.sane
  have hlimit := Usage.limit_after (.fresh grid start finish options) calls
  constructor
  case unnoticed =>
    rintro marked rfl hquery
    have hsame : Usage.Alike (.fresh grid start finish options)
        (.fresh grid start finish options) := ⟨rfl, rfl, rfl, .refl _ _⟩
    obtain ⟨hlog, hafter⟩ := hsame.kept hquery
    exact ⟨hlog, fun id r => hafter.pose?⟩
  case status =>
    intro host id hhost
    obtain ⟨s, hs⟩ := Option.isSome_iff_exists.mp (hsane.housed host id hhost)
    have hdocumented := (hchronicled.recorded id).present s hs
    rw [hlimit] at hdocumented
    refine ⟨s.expected, _, hdocumented.awaited, Usage.serve_status hsane hhost, ?_, ?_⟩
    · rw [← hdocumented.begun_iff]
      simp [Usage.statusOf, Usage.begunAt?, hs]
    · rw [← hdocumented.isRunning_iff (Nat.le_refl _), ← hlimit, ← Usage.runs_eq hs]
      rfl
  case everyone =>
    intro id n hawaited hbound
    cases hs : ((Usage.fresh grid start finish options).after calls).session? id with
    | none =>
      obtain ⟨hnone, -, -⟩ := (hchronicled.recorded id).absent hs
      rw [hawaited] at hnone
      cases hnone
    | some s =>
      have hnodup := ((hchronicled.recorded id).present s hs).nodup
      rw [← le_length_iff_forall_mem hnodup hbound, List.length_map]
  case quits => exact fun id => unquit_iff
  case forward =>
    intro more host host' id s s' hhost hs hhost' hs'
    rw [Usage.serve_status hsane hhost] at hs
    rw [Usage.serve_status (hsane.after more) hhost'] at hs'
    obtain rfl : _ = s := by simpa using hs
    obtain rfl : _ = s' := by simpa using hs'
    exact Usage.stages_forward _ more id

end Labyrinth.Engine

import Labyrinth.Proofs.Engine.Session

/-!
# Requests to the engine

For each request what it answers and what becomes of the sessions of the engine. The calls of those
who are in a session leave alone who is in it and whether it has begun.
-/

namespace Labyrinth.Engine

variable {e : Engine} {id id' : SessionId} {s : Session} {r r' : Role} {n now : Nat}
  {token : String}

theorem session?_setSession :
    (e.setSession id s).session? id' = if id = id' then some s else e.session? id' := by
  simp only [session?, setSession, Std.HashMap.getElem?_insert, beq_iff_eq]

@[simp] theorem session?_setSession_self : (e.setSession id s).session? id = some s := by
  rw [session?_setSession, if_pos rfl]

section Join

variable {n poolSize now : Nat} {r : Role} (hpool : n ≤ poolSize) (hr : r.number < n)

include hpool hr

theorem join_creator (hrole : r = .creator) :
    e.join n poolSize r id now = e.create n id := by
  have hc : r.isCreator = true := by rw [hrole]; rfl
  simp only [Engine.join, Nat.not_lt.mpr hpool, Nat.not_le.mpr hr, hc, if_false, if_true]

theorem join_other (hrole : r ≠ .creator) :
    e.join n poolSize r id now = (.answered (e.attach r id now).1, (e.attach r id now).2) := by
  have hc : r.isCreator = false := by
    rw [Role.isCreator, decide_eq_false_iff_not]
    exact fun h => hrole (congrArg Role.mk h)
  simp only [Engine.join, Nat.not_lt.mpr hpool, Nat.not_le.mpr hr, hc, if_false,
    Bool.false_eq_true]

end Join

/-! ## Joining -/

theorem attach_refused {r : Role} {now : Nat} (h : ∀ s ∈ e.session? id, s.available = false) :
    e.attach r id now = (.error (.notYetAvailable id.text), e) := by
  unfold attach
  split
  · rfl
  · rename_i s hs
    simp only [h s hs, Bool.not_false, if_true]

theorem attach_admitted {r : Role} {now : Nat} (hs : e.session? id = some s) (ha : s.available)
    (hout : s.agent? r = none) :
    e.attach r id now = (.ok (), e.setSession id (s.enrol r (e.spawn r) now)) := by
  simp only [attach, hs, ha, hout, Bool.not_true, Bool.false_eq_true, if_false,
    Option.isSome_none]

/-- What comes of a join with a pool that is large enough. -/
inductive Joins (e : Engine) (n : Nat) (r : Role) (id : SessionId) (now : Nat) :
    JoinStep → Engine → Prop where
  | stranger (h : n ≤ r.number) : Joins e n r id now
      (.answered (.error (.invalidDescriptor ("no agent section for role " ++ r.text)))) e
  | taken (hrole : r = .creator) (h : (e.session? id).isSome) :
      Joins e n r id now (.answered (.error (.conflict id.text))) e
  | creates (hrole : r = .creator) (h : e.session? id = none) :
      Joins e n r id now .creating (e.setSession id (.ofExpected n))
  | early (hr : r.number < n) (hrole : r ≠ .creator)
      (h : ∀ s ∈ e.session? id, s.available = false) :
      Joins e n r id now (.answered (.error (.notYetAvailable id.text))) e
  | inside (s : Session) (hrole : r ≠ .creator) (hs : e.session? id = some s) (ha : s.available)
      (hin : (s.agent? r).isSome) : Joins e n r id now (.answered
        (.error (.conflict (id.text ++ " (role " ++ r.text ++ " already joined)")))) e
  | admitted (s : Session) (hr : r.number < n) (hrole : r ≠ .creator)
      (hs : e.session? id = some s) (ha : s.available) (hout : s.agent? r = none) :
      Joins e n r id now (.answered (.ok ())) (e.setSession id (s.enrol r (e.spawn r) now))

theorem joins_join {poolSize : Nat} (hpool : n ≤ poolSize) :
    Joins e n r id now (e.join n poolSize r id now).1 (e.join n poolSize r id now).2 := by
  by_cases hr : r.number < n
  · by_cases hrole : r = .creator
    · rw [join_creator hpool hr hrole]
      unfold create
      split
      · rename_i s hs
        exact .taken hrole (by rw [hs]; rfl)
      · exact .creates hrole ‹_›
    · rw [join_other hpool hr hrole]
      unfold attach
      split
      · rename_i hs
        exact .early hr hrole fun s hsome => by simp [hs] at hsome
      · rename_i s hs
        split
        · rename_i hclosed
          refine .early hr hrole fun s' hs' => ?_
          obtain rfl := Option.some.inj (hs.symm.trans hs')
          simpa using hclosed
        · rename_i hopen
          have ha : s.available := by simpa using hopen
          split
          · exact .inside s hrole hs ha ‹_›
          · exact .admitted s hr hrole hs ha (Option.not_isSome_iff_eq_none.mp ‹_›)
  · have hle : n ≤ r.number := Nat.le_of_not_lt hr
    unfold join
    rw [if_neg (Nat.not_lt_of_le hpool), if_pos hle]
    exact .stranger hle

theorem finishCreation_eq (hs : e.session? id = some s) :
    e.finishCreation id now = (.ok (), e.setSession id
      ({ s with available := true }.enrol .creator (e.spawn .creator) now)) := by
  unfold finishCreation
  rw [hs]

/-! ## Commands -/

theorem ofToken?_token (c : Command) : Command.ofToken? c.token = some c := by
  cases c <;> decide

theorem ofToken?_quitToken : Command.ofToken? Command.quitToken = none := by decide

theorem token_ne_quitToken (c : Command) : c.token ≠ Command.quitToken := by
  cases c <;> decide

theorem obey_quitToken {r : Role} :
    e.obey s r id Command.quitToken = (.ok (), { s with ended := true }) :=
  if_pos rfl

theorem obey_token {r : Role} {p : Pose} (h : s.agent? r = some p) (c : Command) :
    e.obey s r id c.token = (.ok (), s.setPose r (e.moved p c)) := by
  simp only [obey, token_ne_quitToken, ofToken?_token, h, if_false]

theorem obey_cases (e : Engine) (s : Session) (r : Role) (id : SessionId) (token : String) :
    (e.obey s r id token).2 = s ∨ (e.obey s r id token).2 = { s with ended := true } ∨
      ∃ p, (e.obey s r id token).2 = s.setPose r p := by
  unfold obey
  split
  · exact .inr (.inl rfl)
  · split
    · exact .inl rfl
    · split
      · exact .inl rfl
      · exact .inr (.inr ⟨_, rfl⟩)

theorem agent?_obey (h : r' ≠ r) : (e.obey s r id token).2.agent? r' = s.agent? r' := by
  rcases obey_cases e s r id token with heq | heq | ⟨p, heq⟩ <;> rw [heq]
  · rfl
  · rw [Session.agent?_setPose, if_neg h]

theorem isSome_agent?_obey :
    ((e.obey s r id token).2.agent? r').isSome = (s.agent? r').isSome := by
  rcases obey_cases e s r id token with heq | heq | ⟨p, heq⟩ <;> rw [heq]
  · rfl
  · exact Session.isSome_agent?_setPose

theorem begunAt_obey : (e.obey s r id token).2.begunAt = s.begunAt := by
  rcases obey_cases e s r id token with heq | heq | ⟨p, heq⟩
  · rw [heq]
  · rw [heq]
  · rw [heq]
    rfl

theorem ended_obey (h : s.ended) : (e.obey s r id token).2.ended := by
  rcases obey_cases e s r id token with heq | heq | ⟨p, heq⟩ <;> rw [heq]
  · exact h
  · exact h

theorem available_obey : (e.obey s r id token).2.available = s.available := by
  rcases obey_cases e s r id token with heq | heq | ⟨p, heq⟩
  · rw [heq]
  · rw [heq]
  · rw [heq]
    rfl

theorem sound_obey (h : s.Sound n) : (e.obey s r id token).2.Sound n := by
  rcases obey_cases e s r id token with heq | heq | ⟨p, heq⟩ <;> rw [heq]
  · exact h
  · exact ⟨h.expected, h.nodup, h.bound, h.begun, h.available⟩
  · exact h.setPose

/-! ## Those who are in a session -/

/-- A session with the same agents, whatever they have done. -/
structure Session.Continues (s s' : Session) : Prop where
  inside : ∀ r, (s'.agent? r).isSome = (s.agent? r).isSome
  begunAt : s'.begunAt = s.begunAt
  available : s'.available = s.available
  sound : ∀ n, s.Sound n → s'.Sound n

theorem Session.continues_checkTime (s : Session) (limit : Option Nat) (now : Nat) :
    s.Continues (s.checkTime limit now) :=
  ⟨fun _ => rfl, rfl, rfl, fun _ => Sound.checkTime⟩

theorem continues_obey (e : Engine) (s : Session) (r : Role) (id : SessionId) (token : String) :
    s.Continues (e.obey s r id token).2 :=
  ⟨fun _ => isSome_agent?_obey, begunAt_obey, available_obey, fun _ => sound_obey⟩

theorem Session.Continues.trans {s' s'' : Session} (h : s.Continues s') (h' : s'.Continues s'') :
    s.Continues s'' where
  inside r := (h'.inside r).trans (h.inside r)
  begunAt := h'.begunAt.trans h.begunAt
  available := h'.available.trans h.available
  sound n hn := h'.sound n (h.sound n hn)

theorem status_eq (hs : e.session? id = some s) :
    e.status id now =
      (.ok ⟨s.begunAt.isSome, (s.checkTime e.options.timeLimit now).isRunning⟩,
        e.setSession id (s.checkTime e.options.timeLimit now)) := by
  unfold status current
  rw [hs]
  rfl

theorem status_none (hs : e.session? id = none) :
    e.status id now = (.error ("session '" ++ id.text ++ "' is gone"), e) := by
  unfold status current
  rw [hs]

theorem send_none (hs : e.session? id = none) :
    e.send r id token now = (.error ("session '" ++ id.text ++ "' is gone"), e) := by
  unfold send current
  rw [hs]

theorem send_cases (hs : e.session? id = some s) :
    ∃ s', s.Continues s' ∧ (e.send r id token now).2 = e.setSession id s' := by
  have hcheck := s.continues_checkTime e.options.timeLimit now
  unfold send current
  rw [hs]
  dsimp only
  split
  · exact ⟨_, hcheck.trans (continues_obey e _ r id token), rfl⟩
  · exact ⟨_, hcheck, rfl⟩

end Labyrinth.Engine

import Labyrinth.Proofs.Engine.Rulings

/-!
# The log and the engine agree

Whatever calls come in, the log tells of all sessions, of the sessions that the hosts refer to and
of the creations that go on, and it is lawful.
-/

namespace Labyrinth.Engine

variable {n now host : Nat} {log : List Deed} {d : Deed} {r : Role} {id : SessionId}
  {s : Session} {e e' : Engine} {c : Creation} {pending : List Creation} {u u' : Usage}
  {answer : Except JoinError Unit}

/-- The creations that go on, with the hosts that started them. -/
structure Underway (hosts : Nat) (log : List Deed) (pending : List Creation) : Prop where
  distinct : (pending.map (·.session)).Nodup
  hosted : ∀ c ∈ pending, c.host < hosts
  known : ∀ c ∈ pending, started log c.session
  unfinished : ∀ c ∈ pending, granted log .creator c.session = false
  ended : ∀ r c, .creating r c ∈ log → c ∈ pending ∨ .created c (.ok ()) ∈ log

structure Agrees (n : Nat) (u : Usage) (pending : List Creation) (log : List Deed) : Prop where
  sceneRoles : u.sceneRoles = n
  accounts : Accounts n log u.engine
  hosts : ∀ i, reference log i = u.hosts[i]?.bind Host.session
  underway : Underway u.hosts.length log pending
  lawful : Lawful (Law n) log

/-! ## Hosts -/

theorem reference_afterJoin {hosts : List Host}
    (h : ∀ i, reference log i = hosts[i]?.bind Host.session) (hhost : host < hosts.length)
    (hentry : ∀ i, d.entry i = answer.toOption.bind fun _ => if host = i then some id else none)
    (i : Nat) : reference (log ++ [d]) i =
      (hosts.modify host (·.afterJoin id answer))[i]?.bind Host.session := by
  rw [reference_snoc, h, hentry, List.getElem?_modify]
  by_cases hi : host = i
  · subst hi
    rw [List.getElem?_eq_getElem hhost]
    cases answer with
    | ok => simp [Except.toOption, Host.afterJoin]
    | error => simp [Except.toOption, Host.afterJoin]
  · cases answer with
    | ok => simp [Except.toOption, hi]
    | error => simp [Except.toOption, hi]

theorem entry_joined (i : Nat) : (Deed.joined host r id answer).entry i =
    answer.toOption.bind fun _ => if host = i then some id else none := by
  cases answer <;> rfl

theorem entry_created (i : Nat) : (Deed.created c answer).entry i =
    answer.toOption.bind fun _ => if c.host = i then some c.session else none := by
  cases answer <;> rfl

/-! ## Creations -/

namespace Underway

variable {hosts hosts' : Nat}

theorem mono (h : Underway hosts log pending) (hle : hosts ≤ hosts') :
    Underway hosts' log pending :=
  { h with hosted := fun c hc => Nat.lt_of_lt_of_le (h.hosted c hc) hle }

theorem snoc (h : Underway hosts log pending) (hcreating : ∀ r c, d ≠ .creating r c)
    (hadmits : ∀ c ∈ pending, d.admits .creator c.session = false) :
    Underway hosts (log ++ [d]) pending where
  distinct := h.distinct
  hosted := h.hosted
  known c hc := by
    rw [started_snoc, h.known c hc]
    rfl
  unfinished c hc := by
    rw [granted_snoc, h.unfinished c hc, hadmits c hc]
    rfl
  ended r c hc := by
    rcases List.mem_append.mp hc with hc | hc
    · exact (h.ended r c hc).imp_right (List.mem_append_left _)
    · exact absurd (List.mem_singleton.mp hc).symm (hcreating r c)

theorem creating (h : Underway hosts log pending) (hhost : c.host < hosts)
    (hfresh : started log c.session = false) (hout : granted log .creator c.session = false) :
    Underway hosts (log ++ [.creating r c]) (pending ++ [c]) where
  distinct := by
    rw [List.map_append]
    refine List.nodup_append.mpr ⟨h.distinct, List.nodup_singleton _, ?_⟩
    rintro _ hid _ hid' rfl
    obtain ⟨c', hc', hsession⟩ := List.mem_map.mp hid
    have hknown := h.known c' hc'
    rw [hsession, List.mem_singleton.mp hid', hfresh] at hknown
    cases hknown
  hosted := forall_mem_append_singleton h.hosted hhost
  known := by
    refine forall_mem_append_singleton (fun c' hc' => ?_) ?_
    · rw [started_snoc, h.known c' hc']
      rfl
    · simp [started_snoc, Deed.starts]
  unfinished := by
    refine forall_mem_append_singleton (fun c' hc' => ?_) ?_
    · rw [granted_snoc, h.unfinished c' hc']
      rfl
    · rw [granted_snoc, hout]
      rfl
  ended r' c' hc' := by
    rcases List.mem_append.mp hc' with hc' | hc'
    · exact (h.ended r' c' hc').imp (List.mem_append_left _) (List.mem_append_left _)
    · cases List.mem_singleton.mp hc'
      exact .inl (List.mem_append_right _ (List.mem_singleton_self c))

theorem created (h : Underway hosts log pending) (hc : c ∈ pending) :
    Underway hosts (log ++ [.created c (.ok ())]) (pending.erase c) := by
  have hperm := (List.perm_cons_erase hc).map (·.session)
  obtain ⟨hnot, hdistinct⟩ := List.nodup_cons.mp (hperm.nodup_iff.mp h.distinct)
  constructor
  case distinct => exact hdistinct
  case hosted => exact fun c' hc' => h.hosted c' (List.mem_of_mem_erase hc')
  case known =>
    intro c' hc'
    rw [started_snoc, h.known c' (List.mem_of_mem_erase hc')]
    rfl
  case unfinished =>
    intro c' hc'
    have hne : c.session ≠ c'.session := fun heq => hnot (List.mem_map.mpr ⟨c', hc', heq.symm⟩)
    rw [granted_snoc, h.unfinished c' (List.mem_of_mem_erase hc')]
    simp [Deed.admits, hne]
  case ended =>
    intro r c' hc'
    have hold : .creating r c' ∈ log := by simpa using hc'
    rcases h.ended r c' hold with hpending | hdone
    · by_cases heq : c' = c
      · subst heq
        exact .inr (List.mem_append_right _ (List.mem_singleton_self _))
      · exact .inl ((List.mem_erase_of_ne heq).mpr hpending)
    · exact .inr (List.mem_append_left _ hdone)

end Underway

/-! ## One more call -/

theorem startJoin_answered {poolSize : Nat}
    (h : u.startJoin host r id poolSize = (.answered answer, u')) :
    ∃ e', u.engine.join u.sceneRoles poolSize r id u.now = (.answered answer, e') ∧
      u' = { u with engine := e', hosts := u.hosts.modify host (·.afterJoin id answer) } := by
  unfold Usage.startJoin at h
  split at h
  · cases h
    exact ⟨_, ‹_›, rfl⟩
  · cases h

theorem startJoin_creating {poolSize : Nat}
    (h : u.startJoin host r id poolSize = (.creating c, u')) :
    ∃ e', u.engine.join u.sceneRoles poolSize r id u.now = (.creating, e') ∧
      c.host = host ∧ c.session = id ∧ u' = { u with engine := e' } := by
  unfold Usage.startJoin at h
  split at h
  · cases h
  · cases h
    exact ⟨_, ‹_›, rfl, rfl, rfl⟩

theorem finish_eq (hs : u.engine.session? c.session = some s) :
    u.finish c = (.ok (), { u with
      engine := u.engine.setSession c.session
        ({ s with available := true }.enrol .creator (u.engine.spawn .creator) c.due)
      hosts := u.hosts.modify c.host (·.afterJoin c.session (.ok ())) }) := by
  unfold Usage.finish
  rw [finishCreation_eq hs]

theorem Joins.admits_creator (hjoins : Joins e n r id now (.answered answer) e')
    (id' : SessionId) : (Deed.joined host r id answer).admits .creator id' = false := by
  cases hjoins with
  | stranger | taken | early | inside => rfl
  | admitted s hr hrole => simp [Deed.admits, Ne.symm hrole]

namespace Agrees

variable {poolSize : Nat}

theorem start (grid : Grid) (start finish : Cell) (options : Options) :
    Agrees n (.ofEngine (.ofMaze grid start finish options) n) [] [] where
  sceneRoles := rfl
  accounts id := by
    have hnone : (ofMaze grid start finish options).session? id = none := by
      simp [session?, ofMaze]
    change Account n [] id ((ofMaze grid start finish options).session? id)
    rw [hnone]
    exact ⟨fun s hs => (by cases hs), rfl, fun _ => rfl⟩
  hosts i := by simp [Usage.ofEngine, reference]
  underway := ⟨List.nodup_nil, by simp, by simp, by simp, by simp⟩
  lawful := lawful_nil

theorem enter (h : Agrees n u pending log) (r : Role) : Agrees n (u.addHost r) pending log where
  sceneRoles := h.sceneRoles
  accounts := h.accounts
  hosts i := by
    rw [h.hosts]
    change _ = (u.hosts ++ [Host.ofRole r])[i]?.bind Host.session
    rcases Nat.lt_trichotomy i u.hosts.length with hi | rfl | hi
    · rw [List.getElem?_append_left hi]
    · rw [List.getElem?_eq_none (Nat.le_refl _), List.getElem?_concat_length]
      rfl
    · rw [List.getElem?_eq_none (by omega), List.getElem?_eq_none (by simp; omega)]
  underway := h.underway.mono (by simp [Usage.addHost])
  lawful := h.lawful

theorem joined (hn : 0 < n) (h : Agrees n u pending log) (hhost : host < u.hosts.length)
    (hpool : n ≤ poolSize) (hjoin : u.startJoin host r id poolSize = (.answered answer, u')) :
    Agrees n u' pending (log ++ [.joined host r id answer]) := by
  obtain ⟨e', hstep, rfl⟩ := startJoin_answered hjoin
  have hjoins : Joins u.engine n r id u.now _ _ := joins_join hpool
  rw [h.sceneRoles] at hstep
  rw [hstep] at hjoins
  exact {
    sceneRoles := h.sceneRoles
    accounts := h.accounts.joined hjoins
    hosts := reference_afterJoin h.hosts hhost entry_joined
    underway := by
      dsimp only
      rw [List.length_modify]
      exact h.underway.snoc (by simp) fun c _ => hjoins.admits_creator c.session
    lawful := h.lawful.snoc (hjoins.ruling_eq hn (h.accounts id)) }

theorem creating (hn : 0 < n) (h : Agrees n u pending log) (hhost : host < u.hosts.length)
    (hpool : n ≤ poolSize) (hjoin : u.startJoin host r id poolSize = (.creating c, u')) :
    Agrees n u' (pending ++ [c]) (log ++ [.creating r c]) := by
  obtain ⟨e', hstep, rfl, rfl, rfl⟩ := startJoin_creating hjoin
  have hjoins : Joins u.engine n r c.session u.now _ _ := joins_join hpool
  rw [h.sceneRoles] at hstep
  rw [hstep] at hjoins
  have hruling := hjoins.ruling_eq hn (h.accounts c.session)
  cases hjoins with
  | creates hrole hnone =>
    have haccount : Account n log c.session none := hnone ▸ h.accounts c.session
    exact {
      sceneRoles := h.sceneRoles
      accounts := h.accounts.creating hn (Joins.creates hrole hnone : Joins _ n r _ u.now _ _)
      hosts := fun i => by
        rw [reference_snoc, h.hosts]
        exact Option.or_none
      underway := h.underway.creating hhost haccount.known (haccount.inside _)
      lawful := h.lawful.snoc hruling }

theorem finish_pending (h : Agrees n u pending log) (hc : c ∈ pending) (t : Nat) :
    ∃ s, u.engine.session? c.session = some s ∧ s.agent? .creator = none ∧
      u.finish { c with due := t } = (.ok (), { u with
        engine := u.engine.setSession c.session
          ({ s with available := true }.enrol .creator (u.engine.spawn .creator) t)
        hosts := u.hosts.modify c.host (·.afterJoin c.session (.ok ())) }) := by
  obtain ⟨s, hs, hout⟩ := (h.accounts c.session).unfinished (h.underway.known c hc)
    (h.underway.unfinished c hc)
  exact ⟨s, hs, hout, finish_eq (c := { c with due := t }) hs⟩

theorem created (hn : 0 < n) (h : Agrees n u pending log) (hc : c ∈ pending) {t : Nat}
    (hfinish : u.finish { c with due := t } = (answer, u')) :
    Agrees n u' (pending.erase c) (log ++ [.created c answer]) := by
  obtain ⟨s, hs, hout, heq⟩ := h.finish_pending hc t
  rw [heq] at hfinish
  obtain ⟨rfl, rfl⟩ := Prod.mk.inj hfinish
  exact {
    sceneRoles := h.sceneRoles
    accounts := h.accounts.created hn hs hout
    hosts := reference_afterJoin h.hosts (h.underway.hosted c hc) entry_created
    underway := by
      dsimp only
      rw [List.length_modify]
      exact h.underway.created hc
    lawful := h.lawful.snoc ⟨rfl, h.underway.known c hc, h.underway.unfinished c hc⟩ }

theorem idle (h : Agrees n u pending log) (hd : d.Idle) (hentry : ∀ i, d.entry i = none)
    (haccounts : Accounts n log e) (hlaw : Law n log d) :
    Agrees n { u with engine := e } pending (log ++ [d]) where
  sceneRoles := h.sceneRoles
  accounts := haccounts.idle hd
  hosts i := by
    rw [reference_snoc, hentry, Option.or_none]
    exact h.hosts i
  underway := h.underway.snoc
    (by
      rintro r c rfl
      simpa [Deed.starts] using hd.starts c.session)
    (fun c _ => hd.admits _ _)
  lawful := h.lawful.snoc hlaw

theorem asked {reply : Except String Status} (h : Agrees n u pending log)
    (hstatus : u.status host = (some reply, u')) :
    Agrees n u' pending (log ++ [.asked host reply]) := by
  unfold Usage.status at hstatus
  cases hhost : u.hosts[host]? with
  | none =>
    rw [hhost] at hstatus
    cases hstatus
  | some p =>
    rw [hhost] at hstatus
    cases hstatus
    have href : reference log host = p.session := by
      rw [h.hosts, hhost]
      rfl
    cases hsession : p.session with
    | none =>
      refine h.idle (Deed.idle_asked _) (fun _ => rfl) h.accounts fun id hid => ?_
      rw [href, hsession] at hid
      cases hid
    | some id =>
      refine h.idle (Deed.idle_asked _) (fun _ => rfl) h.accounts.status fun id' hid => ?_
      obtain rfl := Option.some.inj ((href.trans hsession).symm.trans hid)
      obtain ⟨r, hr⟩ := granted_of_reference hid
      obtain ⟨s, hs, -⟩ := (h.accounts id).exists_of_granted hr
      dsimp only
      rw [status_eq hs]
      exact ⟨_, rfl, (hs ▸ h.accounts id).begunAt_iff⟩

theorem sent {token : String} {reply : Except String Unit} (h : Agrees n u pending log)
    (hsend : u.send host token = (some reply, u')) :
    Agrees n u' pending (log ++ [.sent host token reply]) := by
  unfold Usage.send at hsend
  cases hhost : u.hosts[host]? with
  | none =>
    rw [hhost] at hsend
    cases hsend
  | some p =>
    rw [hhost] at hsend
    cases hsend
    cases p.session with
    | none => exact h.idle (Deed.idle_sent _ _) (fun _ => rfl) h.accounts trivial
    | some id => exact h.idle (Deed.idle_sent _ _) (fun _ => rfl) h.accounts.send trivial

end Agrees

/-- Whatever calls come in, the log and the engine agree. -/
theorem Traffic.agrees (hn : 0 < n) (h : Traffic n u pending log) : Agrees n u pending log := by
  induction h with
  | start grid start finish options => exact .start grid start finish options
  | enter _ r ih => exact ih.enter r
  | wait _ d ih => exact ⟨ih.sceneRoles, ih.accounts, ih.hosts, ih.underway, ih.lawful⟩
  | joined _ hhost hpool hjoin ih => exact ih.joined hn hhost hpool hjoin
  | creating _ hhost hpool hjoin ih => exact ih.creating hn hhost hpool hjoin
  | created _ hc _ hfinish ih => exact ih.created hn hc hfinish
  | asked _ hstatus ih => exact ih.asked hstatus
  | sent _ hsend ih => exact ih.sent hsend
  | observed _ host ih => exact ih.idle (Deed.idle_observed _) (fun _ => rfl) ih.accounts trivial

/-! ## Every join is answered -/

theorem Agrees.answer?_join {poolSize : Nat} (hn : 0 < n) (h : Agrees n u pending log)
    (hpool : n ≤ poolSize) :
    (u.engine.join u.sceneRoles poolSize r id u.now).1.answer? = ruling n log r id := by
  rw [h.sceneRoles]
  exact ((joins_join hpool).ruling_eq hn (h.accounts id)).symm

namespace Traffic

theorem exists_joined (host : Nat) (r : Role) (id : SessionId) (hn : 0 < n)
    (h : Traffic n u pending log) (hhost : host < u.hosts.length)
    (hruling : ruling n log r id = some answer) :
    ∃ u', u'.hosts.length = u.hosts.length ∧
      Traffic n u' pending (log ++ [.joined host r id answer]) := by
  have hagrees := h.agrees hn
  have hstep := (hagrees.answer?_join (r := r) hn (Nat.le_refl n)).trans hruling
  cases hjoin : u.engine.join u.sceneRoles n r id u.now with
  | mk step e' =>
    rw [hjoin] at hstep
    cases step with
    | creating => cases hstep
    | answered a =>
      obtain rfl := Option.some.inj hstep
      refine ⟨_, ?_, h.joined hhost (Nat.le_refl n) (by rw [Usage.startJoin, hjoin])⟩
      exact List.length_modify ..

theorem exists_creating (host : Nat) (r : Role) (id : SessionId) (hn : 0 < n)
    (h : Traffic n u pending log) (hhost : host < u.hosts.length)
    (hruling : ruling n log r id = none) :
    ∃ c u', c.session = id ∧ u'.hosts.length = u.hosts.length ∧
      Traffic n u' (pending ++ [c]) (log ++ [.creating r c]) := by
  have hagrees := h.agrees hn
  have hstep := (hagrees.answer?_join (r := r) hn (Nat.le_refl n)).trans hruling
  cases hjoin : u.engine.join u.sceneRoles n r id u.now with
  | mk step e' =>
    rw [hjoin] at hstep
    cases step with
    | answered a => cases hstep
    | creating =>
      exact ⟨⟨host, id, u.now + u.engine.options.creationLatency⟩, { u with engine := e' }, rfl,
        rfl, h.creating hhost (Nat.le_refl n) (by rw [Usage.startJoin, hjoin])⟩

theorem exists_created (hn : 0 < n) (h : Traffic n u pending log) (hc : c ∈ pending) :
    ∃ u', u'.hosts.length = u.hosts.length ∧
      Traffic n u' (pending.erase c) (log ++ [.created c (.ok ())]) := by
  have hlater := h.wait c.due
  obtain ⟨s, hs, hout, hfinish⟩ := (hlater.agrees hn).finish_pending hc (u.now + c.due)
  exact ⟨_, List.length_modify .., hlater.created hc (Nat.le_add_left ..) hfinish⟩

end Traffic

end Labyrinth.Engine

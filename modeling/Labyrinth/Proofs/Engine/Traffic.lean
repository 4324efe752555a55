import Labyrinth.Engine.Usage
import Labyrinth.Proofs.Engine.Requests
import Labyrinth.Proofs.Log

/-!
# The traffic of an engine

Any number of hosts call one engine, all of them with the same number of roles and a pool that is
large enough. What they are answered is logged. A join that creates a session is logged twice: other
calls come in while its creation goes on.
-/

namespace Labyrinth.Engine

/-! ## What happens -/

inductive Deed where
  /-- A join that is answered at once. -/
  | joined (host : Nat) (r : Role) (id : SessionId) (answer : Except JoinError Unit)
  /-- A join that starts a creation. -/
  | creating (r : Role) (c : Creation)
  /-- The creation is over, and the join that started it is answered. -/
  | created (c : Creation) (answer : Except JoinError Unit)
  | asked (host : Nat) (answer : Except String Status)
  | sent (host : Nat) (token : String) (answer : Except String Unit)
  | observed (host : Nat) (answer : Option Observation)

namespace Deed

/-- A join of the role is answered with success. -/
def admits (r : Role) (id : SessionId) : Deed → Bool
  | .joined _ r' id' (.ok ()) => decide (r = r' ∧ id' = id)
  | .created c (.ok ()) => decide (r = .creator ∧ c.session = id)
  | _ => false

def starts (id : SessionId) : Deed → Bool
  | .creating _ c => decide (c.session = id)
  | _ => false

/-- The session that a join of the host is answered with success for. -/
def entry (host : Nat) : Deed → Option SessionId
  | .joined host' _ id (.ok ()) | .created ⟨host', id, _⟩ (.ok ()) =>
    if host' = host then some id else none
  | _ => none

/-- The deed starts no creation and lets nobody in. -/
structure Idle (d : Deed) : Prop where
  starts : ∀ id, d.starts id = false
  admits : ∀ r id, d.admits r id = false

end Deed

def granted (log : List Deed) (r : Role) (id : SessionId) : Bool := log.any (·.admits r id)

def started (log : List Deed) (id : SessionId) : Bool := log.any (·.starts id)

/-- The session that a host refers to is the first that it joined. -/
def reference (log : List Deed) (host : Nat) : Option SessionId := log.findSome? (·.entry host)

/-- All roles of the scene have joined. -/
def Complete (n : Nat) (log : List Deed) (id : SessionId) : Prop :=
  ∀ r : Role, r.number < n → granted log r id

/-- Every interleaving of the calls to an engine, with the creations that go on at its end. -/
inductive Traffic (n : Nat) : Usage → List Creation → List Deed → Prop where
  | start (grid : Grid) (start finish : Cell) (options : Options) :
      Traffic n (.ofEngine (.ofMaze grid start finish options) n) [] []
  | enter {u pending log} (h : Traffic n u pending log) (r : Role) :
      Traffic n (u.addHost r) pending log
  | wait {u pending log} (h : Traffic n u pending log) (d : Nat) :
      Traffic n { u with now := u.now + d } pending log
  | joined {u pending log} (h : Traffic n u pending log) {host r id poolSize answer u'}
      (hhost : host < u.hosts.length) (hpool : n ≤ poolSize)
      (hjoin : u.startJoin host r id poolSize = (.answered answer, u')) :
      Traffic n u' pending (log ++ [.joined host r id answer])
  | creating {u pending log} (h : Traffic n u pending log) {host r id poolSize c u'}
      (hhost : host < u.hosts.length) (hpool : n ≤ poolSize)
      (hjoin : u.startJoin host r id poolSize = (.creating c, u')) :
      Traffic n u' (pending ++ [c]) (log ++ [.creating r c])
  /-- A creation takes as long as it has to, or longer. -/
  | created {u pending log} (h : Traffic n u pending log) {c answer u'} (hc : c ∈ pending)
      (hdue : c.due ≤ u.now) (hfinish : u.finish { c with due := u.now } = (answer, u')) :
      Traffic n u' (pending.erase c) (log ++ [.created c answer])
  | asked {u pending log} (h : Traffic n u pending log) {host answer u'}
      (hstatus : u.status host = (some answer, u')) :
      Traffic n u' pending (log ++ [.asked host answer])
  | sent {u pending log} (h : Traffic n u pending log) {host token answer u'}
      (hsend : u.send host token = (some answer, u')) :
      Traffic n u' pending (log ++ [.sent host token answer])
  | observed {u pending log} (h : Traffic n u pending log) (host : Nat) :
      Traffic n u pending (log ++ [.observed host (u.observe host)])

variable {n now host : Nat} {log : List Deed} {d : Deed} {r r' : Role} {id id' : SessionId}
  {s s' : Session} {e e' : Engine} {c : Creation} {pending : List Creation}
  {answer : Except JoinError Unit}

/-! ## One more entry -/

theorem granted_snoc : granted (log ++ [d]) r id = (granted log r id || d.admits r id) := by
  simp [granted]

theorem started_snoc : started (log ++ [d]) id = (started log id || d.starts id) := by
  simp [started]

theorem reference_snoc : reference (log ++ [d]) host = (reference log host).or (d.entry host) := by
  simp [reference]

theorem granted_append {more : List Deed} (h : granted log r id) : granted (log ++ more) r id := by
  rw [granted, List.any_append, Bool.or_eq_true]
  exact .inl h

theorem started_append {more : List Deed} (h : started log id) : started (log ++ more) id := by
  rw [started, List.any_append, Bool.or_eq_true]
  exact .inl h

theorem Complete.append {more : List Deed} (h : Complete n log id) : Complete n (log ++ more) id :=
  fun r hr => granted_append (h r hr)

namespace Deed

theorem admits_iff : d.admits r id ↔ (∃ host, d = .joined host r id (.ok ())) ∨
    ∃ c, d = .created c (.ok ()) ∧ r = .creator ∧ c.session = id := by
  constructor
  · intro h
    unfold admits at h
    split at h
    · obtain ⟨rfl, rfl⟩ := of_decide_eq_true h
      exact .inl ⟨_, rfl⟩
    · exact .inr ⟨_, rfl, of_decide_eq_true h⟩
    · cases h
  · rintro (⟨host, rfl⟩ | ⟨c, rfl, hrole, hsession⟩)
    · exact decide_eq_true ⟨rfl, rfl⟩
    · exact decide_eq_true ⟨hrole, hsession⟩

theorem exists_admits_of_entry (h : d.entry host = some id) : ∃ r, d.admits r id := by
  unfold entry at h
  split at h
  · split at h
    · obtain rfl := Option.some.inj h
      exact ⟨_, admits_iff.mpr (.inl ⟨_, rfl⟩)⟩
    · cases h
  · split at h
    · obtain rfl := Option.some.inj h
      exact ⟨_, admits_iff.mpr (.inr ⟨_, rfl, rfl, rfl⟩)⟩
    · cases h
  · cases h

theorem idle_joined_error (err : JoinError) : (Deed.joined host r id (.error err)).Idle :=
  ⟨fun _ => rfl, fun _ _ => rfl⟩

theorem idle_asked (answer : Except String Status) : (Deed.asked host answer).Idle :=
  ⟨fun _ => rfl, fun _ _ => rfl⟩

theorem idle_sent (token : String) (answer : Except String Unit) :
    (Deed.sent host token answer).Idle :=
  ⟨fun _ => rfl, fun _ _ => rfl⟩

theorem idle_observed (answer : Option Observation) : (Deed.observed host answer).Idle :=
  ⟨fun _ => rfl, fun _ _ => rfl⟩

end Deed

theorem granted_of_reference (h : reference log host = some id) : ∃ r, granted log r id := by
  obtain ⟨d, hd, hentry⟩ := List.exists_of_findSome?_eq_some h
  obtain ⟨r, hr⟩ := Deed.exists_admits_of_entry hentry
  exact ⟨r, List.any_eq_true.mpr ⟨d, hd, hr⟩⟩

/-! ## What the log says of a session -/

structure Account (n : Nat) (log : List Deed) (id : SessionId) (session? : Option Session) :
    Prop where
  sound : ∀ s, session? = some s → s.Sound n
  known : started log id = session?.isSome
  inside : ∀ r, granted log r id = (session?.bind (·.agent? r)).isSome

/-- The log tells of every session of the engine. -/
def Accounts (n : Nat) (log : List Deed) (e : Engine) : Prop :=
  ∀ id, Account n log id (e.session? id)

namespace Account

variable {session? : Option Session}

theorem snoc (h : Account n log id session?) (hstarts : d.starts id = false)
    (hadmits : ∀ r, d.admits r id = false) : Account n (log ++ [d]) id session? where
  sound := h.sound
  known := by rw [started_snoc, hstarts, Bool.or_false, h.known]
  inside r := by rw [granted_snoc, hadmits, Bool.or_false, h.inside]

theorem continues (h : Account n log id (some s)) (hc : s.Continues s') :
    Account n log id (some s') where
  sound := by
    rintro _ ⟨⟩
    exact hc.sound n (h.sound s rfl)
  known := h.known
  inside r := (h.inside r).trans (hc.inside r).symm

theorem creating (hn : 0 < n) (h : Account n log id none) (hstarts : d.starts id)
    (hadmits : ∀ r, d.admits r id = false) :
    Account n (log ++ [d]) id (some (.ofExpected n)) where
  sound := by
    rintro _ ⟨⟩
    exact .ofExpected hn
  known := by
    rw [started_snoc, hstarts, Bool.or_true]
    rfl
  inside r := by
    rw [granted_snoc, hadmits, Bool.or_false, h.inside]
    rfl

theorem enrol {p : Pose} (h : Account n log id (some s)) (hout : s.agent? r = none)
    (hr : r.number < n) (havail : s.available ∨ r = .creator)
    (hadmits : ∀ r', d.admits r' id = decide (r' = r)) :
    Account n (log ++ [d]) id (some ({ s with available := true }.enrol r p now)) where
  sound := by
    rintro _ ⟨⟩
    exact (h.sound s rfl).enrol hout hr havail
  known := by
    rw [started_snoc, h.known]
    rfl
  inside r' := by
    have hin : (({ s with available := true }.enrol r p now).agent? r').isSome ↔
        r' = r ∨ (s.agent? r').isSome := Session.isSome_agent?_enrol
    rw [granted_snoc, hadmits, h.inside, Bool.eq_iff_iff, Bool.or_eq_true, decide_eq_true_iff,
      or_comm]
    exact hin.symm

theorem exists_of_granted (h : Account n log id session?) (hgranted : granted log r id) :
    ∃ s, session? = some s ∧ (s.agent? r).isSome := by
  rw [h.inside] at hgranted
  obtain ⟨p, hp⟩ := Option.isSome_iff_exists.mp hgranted
  obtain ⟨s, hs, hagent⟩ := Option.bind_eq_some_iff.mp hp
  exact ⟨s, hs, Option.isSome_of_eq_some hagent⟩

theorem unfinished (h : Account n log id session?) (hstarted : started log id)
    (hout : granted log .creator id = false) :
    ∃ s, session? = some s ∧ s.agent? .creator = none := by
  obtain ⟨s, rfl⟩ := Option.isSome_iff_exists.mp (h.known.symm.trans hstarted)
  have hmissing := (h.inside .creator).symm.trans hout
  exact ⟨s, rfl, by simpa using hmissing⟩

theorem begunAt_iff (h : Account n log id (some s)) :
    s.begunAt.isSome ↔ Complete n log id := by
  constructor
  · intro hbegun r hr
    exact (h.inside r).trans ((h.sound s rfl).isSome_agent? hbegun hr)
  · intro hcomplete
    by_contra hnot
    obtain ⟨r, hr, hout⟩ := (h.sound s rfl).exists_missing (Option.not_isSome_iff_eq_none.mp hnot)
    have hgranted := (h.inside r).symm.trans (hcomplete r hr)
    rw [Option.bind_some, hout] at hgranted
    cases hgranted

theorem begins_iff (hn : 0 < n) (h : Account n log id session?) :
    (∃ s, session? = some s ∧ s.begunAt.isSome) ↔ Complete n log id := by
  constructor
  · rintro ⟨s, rfl, hbegun⟩
    exact h.begunAt_iff.mp hbegun
  · intro hcomplete
    obtain ⟨s, rfl, -⟩ := h.exists_of_granted (hcomplete .creator hn)
    exact ⟨s, rfl, h.begunAt_iff.mpr hcomplete⟩

end Account

namespace Accounts

theorem idle (h : Accounts n log e) (hd : d.Idle) : Accounts n (log ++ [d]) e :=
  fun id => (h id).snoc (hd.starts id) fun r => hd.admits r id

theorem set (h : Accounts n log e) (hself : Account n (log ++ [d]) id (some s))
    (hstarts : ∀ id', id ≠ id' → d.starts id' = false)
    (hadmits : ∀ r id', id ≠ id' → d.admits r id' = false) :
    Accounts n (log ++ [d]) (e.setSession id s) := by
  intro id'
  rw [session?_setSession]
  split
  · subst id'
    exact hself
  · rename_i hne
    exact (h id').snoc (hstarts id' hne) fun r => hadmits r id' hne

theorem continues (h : Accounts n log e) (hs : e.session? id = some s) (hc : s.Continues s') :
    Accounts n log (e.setSession id s') := by
  intro id'
  rw [session?_setSession]
  split
  · subst id'
    exact (hs ▸ h id).continues hc
  · exact h id'

theorem joined (h : Accounts n log e) (hjoins : Joins e n r id now (.answered answer) e') :
    Accounts n (log ++ [.joined host r id answer]) e' := by
  cases hjoins with
  | stranger | taken | early | inside => exact h.idle (Deed.idle_joined_error _)
  | admitted s hr hrole hs ha hout =>
    have hopen : { s with available := true } = s := by rw [← ha]
    have hself : Account n (log ++ [.joined host r id (.ok ())]) id
        (some ({ s with available := true }.enrol r (e.spawn r) now)) :=
      (hs ▸ h id).enrol hout hr (.inl ha) fun r' => by simp [Deed.admits]
    rw [hopen] at hself
    exact h.set hself (fun _ _ => rfl) fun r' id' hne => by simp [Deed.admits, hne]

theorem creating (hn : 0 < n) (h : Accounts n log e)
    (hjoins : Joins e n r c.session now .creating e') : Accounts n (log ++ [.creating r c]) e' := by
  cases hjoins with
  | creates hrole hnone =>
    have hself := (hnone ▸ h c.session).creating (d := .creating r c) hn (by simp [Deed.starts])
      fun _ => rfl
    exact h.set hself (fun id' hne => by simp [Deed.starts, hne]) fun _ _ _ => rfl

theorem created (hn : 0 < n) (h : Accounts n log e) (hs : e.session? c.session = some s)
    (hout : s.agent? .creator = none) {p : Pose} :
    Accounts n (log ++ [.created c (.ok ())])
      (e.setSession c.session ({ s with available := true }.enrol .creator p now)) :=
  h.set ((hs ▸ h c.session).enrol hout hn (.inr rfl) fun r' => by simp [Deed.admits])
    (fun _ _ => rfl) fun r' id' hne => by simp [Deed.admits, hne]

theorem status (h : Accounts n log e) : Accounts n log (e.status id now).2 := by
  cases hs : e.session? id with
  | none =>
    rw [status_none hs]
    exact h
  | some s =>
    rw [status_eq hs]
    exact h.continues hs (s.continues_checkTime _ _)

theorem send {token : String} (h : Accounts n log e) :
    Accounts n log (e.send r id token now).2 := by
  cases hs : e.session? id with
  | none =>
    rw [send_none hs]
    exact h
  | some s =>
    obtain ⟨s', hc, heq⟩ : ∃ s', s.Continues s' ∧ (e.send r id token now).2 = e.setSession id s' :=
      send_cases hs
    rw [heq]
    exact h.continues hs hc

end Accounts

end Labyrinth.Engine

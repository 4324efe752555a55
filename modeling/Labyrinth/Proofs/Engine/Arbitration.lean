import Labyrinth.Proofs.Engine.Agreement

/-!
# Who gets into a session

However many hosts call the engine, each role gets into a session once, the creator first, and the
session begins when all of them are in.
-/

namespace Labyrinth.Engine

variable {n : Nat} {log : List Deed} {pending : List Creation} {u : Usage}

/-- How the engine decides who gets into its sessions, and when these begin. -/
structure Arbitrated (n : Nat) (u : Usage) (pending : List Creation) (log : List Deed) : Prop where
  once : ∀ r id, (log.filter (·.admits r id)).length ≤ 1
  taken : ∀ before host r id answer after, log = before ++ .joined host r id answer :: after →
    granted before r id ∨ r = .creator ∧ started before id → answer = .error (conflict r id)
  /-- A join that is not answered at once is the first of a creator. -/
  first : ∀ before r c after, log = before ++ .creating r c :: after →
    r = .creator ∧ started before c.session = false
  early : ∀ before host r id answer after, log = before ++ .joined host r id answer :: after →
    r ≠ .creator → r.number < n →
    (answer = .error (.notYetAvailable id.text) ↔ granted before .creator id = false)
  free : ∀ before host r id answer after, log = before ++ .joined host r id answer :: after →
    r ≠ .creator → r.number < n → granted before .creator id → granted before r id = false →
    answer = .ok ()
  begins : ∀ id, (∃ s, u.engine.session? id = some s ∧ s.begunAt.isSome) ↔ Complete n log id
  statuses : ∀ before host answer after id, log = before ++ .asked host answer :: after →
    reference before host = some id →
    ∃ status, answer = .ok status ∧ (status.hasBegun ↔ Complete n before id)
  lasting : ∀ before host status between host' answer after id,
    log = before ++ .asked host (.ok status) :: between ++ .asked host' answer :: after →
    reference before host = some id → status.hasBegun →
    reference (before ++ .asked host (.ok status) :: between) host' = some id →
    ∃ status', answer = .ok status' ∧ status'.hasBegun
  /-- A creation that has been started is going on or has ended with success. -/
  ended : ∀ r c, .creating r c ∈ log → c ∈ pending ∨ .created c (.ok ()) ∈ log
  /-- Whenever a creation ends, the session is still there. -/
  never_vanished : ∀ c ∈ pending, ∀ t, (u.finish { c with due := t }).1 = .ok ()

theorem Traffic.arbitrated (hn : 0 < n) (h : Traffic n u pending log) :
    Arbitrated n u pending log := by
  have hagrees := h.agrees hn
  have hlaw := hagrees.lawful
  constructor
  case once =>
    refine fun r id => Lawful.length_filter_le_one fun before d after heq hd => ?_
    have hallowed : Law n before d := hlaw before d after heq
    exact (hallowed.admits hd).1
  case taken =>
    rintro before host r id answer after rfl htaken
    have hruling : ruling n before r id = some answer := hlaw before _ after rfl
    rw [ruling_taken hn hlaw.of_append htaken] at hruling
    exact (Option.some.inj hruling).symm
  case first => exact fun before r c after heq => ruling_eq_none (hlaw before _ after heq)
  case early =>
    intro before host r id answer after heq hrole hr
    have hruling : ruling n before r id = some answer := hlaw before _ after heq
    rw [ruling_other hr hrole] at hruling
    cases hcreated : granted before .creator id with
    | false =>
      rw [if_pos hcreated] at hruling
      exact iff_of_true (Option.some.inj hruling).symm rfl
    | true =>
      rw [if_neg (by simp [hcreated])] at hruling
      refine iff_of_false ?_ (by simp)
      rintro rfl
      split at hruling <;> simp [conflict] at hruling
  case free =>
    intro before host r id answer after heq hrole hr hcreated hout
    have hruling : ruling n before r id = some answer := hlaw before _ after heq
    rw [ruling_other hr hrole, if_neg (by simp [hcreated]), if_neg (by simp [hout])] at hruling
    exact (Option.some.inj hruling).symm
  case begins => exact fun id => (hagrees.accounts id).begins_iff hn
  case statuses =>
    exact fun before host answer after id heq => hlaw before _ after heq id
  case lasting =>
    intro before host status between host' answer after id heq href hbegun href'
    have hfirst := hlaw before _ (between ++ .asked host' answer :: after) (by simpa using heq)
    obtain ⟨status₀, hstatus, hiff⟩ := hfirst id href
    obtain rfl := Except.ok.inj hstatus
    obtain ⟨status', hstatus', hiff'⟩ := hlaw _ _ after heq id href'
    exact ⟨status', hstatus', hiff'.mpr (hiff.mp hbegun).append⟩
  case ended => exact hagrees.underway.ended
  case never_vanished =>
    intro c hc t
    obtain ⟨s, -, -, hfinish⟩ := hagrees.finish_pending hc t
    rw [hfinish]

/-- The other role and a second creator come while the creation goes on. The other role comes again
after it, and the session begins. -/
theorem arbitrated_pair : ∃ u c, let id : SessionId := ⟨"s"⟩
    let log : List Deed := [.creating .creator c,
      .joined 1 ⟨1⟩ id (.error (.notYetAvailable "s")),
      .joined 2 .creator id (.error (.conflict "s")),
      .created c (.ok ()), .joined 1 ⟨1⟩ id (.ok ())]
    0 < 2 ∧ Traffic 2 u [] log ∧ Arbitrated 2 u [] log ∧
      ∃ s, u.engine.session? id = some s ∧ s.begunAt.isSome := by
  have hn : 0 < 2 := Nat.two_pos
  have hstart := (((Traffic.start (n := 2) default default default .standard).enter ⟨0⟩).enter
    ⟨1⟩).enter ⟨0⟩
  obtain ⟨c, u₁, hsession, hlength₁, hcreating⟩ :=
    hstart.exists_creating 0 .creator ⟨"s"⟩ hn (by decide) rfl
  have hhosts₁ : u₁.hosts.length = 3 := hlength₁
  obtain ⟨u₂, hlength₂, hearly⟩ :=
    hcreating.exists_joined 1 ⟨1⟩ ⟨"s"⟩ hn (by omega) rfl
  obtain ⟨u₃, hlength₃, htaken⟩ :=
    hearly.exists_joined 2 .creator ⟨"s"⟩ hn (by omega)
      (by simp [ruling, conflict, started, Deed.starts, hsession, Role.creator] :
        ruling 2 _ .creator ⟨"s"⟩ = some (.error (.conflict "s")))
  obtain ⟨u₄, hlength₄, hcreated⟩ := htaken.exists_created hn (List.mem_singleton_self c)
  obtain ⟨u₅, -, hadmitted⟩ :=
    hcreated.exists_joined 1 ⟨1⟩ ⟨"s"⟩ hn (by omega)
      (by simp [ruling, granted, Deed.admits, hsession, Role.creator] :
        ruling 2 _ ⟨1⟩ ⟨"s"⟩ = some (.ok ()))
  have hpending : ([] ++ [c]).erase c = [] := by simp
  rw [hpending] at hadmitted
  have harbitrated := Traffic.arbitrated hn hadmitted
  refine ⟨u₅, c, hn, hadmitted, harbitrated, (harbitrated.begins ⟨"s"⟩).mpr fun r hr => ?_⟩
  obtain ⟨k⟩ := r
  have hk : k = 0 ∨ k = 1 := by
    dsimp only at hr
    omega
  rcases hk with rfl | rfl
  · simp [granted, Deed.admits, hsession, Role.creator]
  · simp [granted, Deed.admits]

end Labyrinth.Engine

import Labyrinth.Proofs.Engine.Traffic

/-!
# Rulings

What a join is answered follows from the log alone: the creator gets in first, and each other role
once. A log in which every entry is ruled so is lawful.
-/

namespace Labyrinth.Engine

variable {n now : Nat} {log : List Deed} {d : Deed} {r : Role} {id : SessionId}
  {e e' : Engine} {answer : Except JoinError Unit}

/-! ## Rulings -/

def JoinStep.answer? : JoinStep → Option (Except JoinError Unit)
  | .answered a => some a
  | .creating => none

def conflict (r : Role) (id : SessionId) : JoinError :=
  .conflict (if r = .creator then id.text else id.text ++ " (role " ++ r.text ++ " already joined)")

/-- The answer of a join after what came before, or none if it starts a creation. -/
def ruling (n : Nat) (log : List Deed) (r : Role) (id : SessionId) :
    Option (Except JoinError Unit) :=
  if n ≤ r.number then
    some (.error (.invalidDescriptor ("no agent section for role " ++ r.text)))
  else if r = .creator then
    if started log id then some (.error (conflict r id)) else none
  else if granted log .creator id = false then some (.error (.notYetAvailable id.text))
  else if granted log r id then some (.error (conflict r id))
  else some (.ok ())

theorem ruling_creator (hn : 0 < n) :
    ruling n log .creator id =
      if started log id then some (.error (conflict .creator id)) else none := by
  have hcreator : ¬ n ≤ Role.creator.number := Nat.not_le.mpr hn
  rw [ruling, if_neg hcreator, if_pos rfl]

theorem ruling_other (hr : r.number < n) (hrole : r ≠ .creator) :
    ruling n log r id =
      if granted log .creator id = false then some (.error (.notYetAvailable id.text))
      else if granted log r id then some (.error (conflict r id))
      else some (.ok ()) := by
  rw [ruling, if_neg (Nat.not_le.mpr hr), if_neg hrole]

theorem ruling_eq_none (h : ruling n log r id = none) : r = .creator ∧ started log id = false := by
  unfold ruling at h
  split_ifs at h with hle hrole hstarted
  exact ⟨hrole, Bool.eq_false_iff.mpr hstarted⟩

theorem ruling_eq_ok (h : ruling n log r id = some (.ok ())) :
    r.number < n ∧ r ≠ .creator ∧ granted log .creator id ∧ granted log r id = false := by
  unfold ruling at h
  split_ifs at h with hle hrole hstarted hcreated hgranted
  case neg =>
    exact ⟨Nat.not_le.mp hle, hrole, Bool.not_eq_false _ ▸ hcreated, Bool.eq_false_iff.mpr hgranted⟩
  all_goals cases h

theorem Joins.ruling_eq {step : JoinStep} (hn : 0 < n) (h : Account n log id (e.session? id))
    (hjoins : Joins e n r id now step e') : ruling n log r id = step.answer? := by
  have hcreator : ¬ n ≤ Role.creator.number := Nat.not_le.mpr hn
  cases hjoins with
  | stranger hle => exact if_pos hle
  | taken hrole hsome =>
    have hstarted := h.known.trans hsome
    simp [ruling, hrole, hcreator, hstarted, conflict, JoinStep.answer?]
  | creates hrole hnone =>
    have hfresh := h.known.trans (congrArg Option.isSome hnone)
    simp [ruling, hrole, hcreator, hfresh, JoinStep.answer?]
  | early hr hrole hclosed =>
    have hout : granted log .creator id = false := by
      rw [Bool.eq_false_iff]
      intro hcreated
      obtain ⟨s, hs, hin⟩ := h.exists_of_granted hcreated
      have hopen := (h.sound s hs).available.mpr hin
      rw [hclosed s hs] at hopen
      cases hopen
    simp [ruling, hrole, Nat.not_le.mpr hr, hout, JoinStep.answer?]
  | inside s hrole hs ha hin =>
    rw [hs] at h
    have hsound := h.sound s rfl
    have hr : r.number < n := hsound.bound r (Session.agent?_isSome_iff.mp hin)
    have hcreated : granted log .creator id := (h.inside _).trans (hsound.available.mp ha)
    have hgranted : granted log r id := (h.inside r).trans hin
    simp [ruling, hrole, Nat.not_le.mpr hr, hcreated, hgranted, conflict, JoinStep.answer?]
  | admitted s hr hrole hs ha hout =>
    rw [hs] at h
    have hcreated : granted log .creator id :=
      (h.inside _).trans ((h.sound s rfl).available.mp ha)
    have hgranted : granted log r id = false := by
      rw [h.inside, Option.bind_some, hout]
      rfl
    simp [ruling, hrole, Nat.not_le.mpr hr, hcreated, hgranted, JoinStep.answer?]

/-! ## Lawful logs -/

/-- What an entry may be after what came before. -/
def Law (n : Nat) (before : List Deed) : Deed → Prop
  | .joined _ r id answer => ruling n before r id = some answer
  | .creating r c => ruling n before r c.session = none
  | .created c answer =>
    answer = .ok () ∧ started before c.session ∧ granted before .creator c.session = false
  | .asked host answer => ∀ id, reference before host = some id →
    ∃ status, answer = .ok status ∧ (status.hasBegun ↔ Complete n before id)
  | .sent .. | .observed .. => True

theorem Law.admits {before : List Deed} (h : Law n before d) (hd : d.admits r id) :
    granted before r id = false ∧
      (r = .creator ∧ started before id ∨
        r ≠ .creator ∧ r.number < n ∧ granted before .creator id) := by
  rcases Deed.admits_iff.mp hd with ⟨host, rfl⟩ | ⟨c, rfl, rfl, rfl⟩
  · obtain ⟨hr, hrole, hcreated, hout⟩ := ruling_eq_ok h
    exact ⟨hout, .inr ⟨hrole, hr, hcreated⟩⟩
  · exact ⟨h.2.2, .inl ⟨rfl, h.2.1⟩⟩

theorem cases_of_granted (h : Lawful (Law n) log) (hgranted : granted log r id) :
    r = .creator ∧ started log id ∨ r ≠ .creator ∧ r.number < n ∧ granted log .creator id := by
  obtain ⟨d, hd, hadmits⟩ := List.any_eq_true.mp hgranted
  obtain ⟨before, after, rfl, hlaw⟩ := h.exists_of_mem hd
  refine (hlaw.admits hadmits).2.imp (And.imp_right fun hstarted => ?_)
    (And.imp_right (And.imp_right granted_append))
  exact started_append hstarted

theorem ruling_taken (hn : 0 < n) (h : Lawful (Law n) log)
    (htaken : granted log r id ∨ r = .creator ∧ started log id) :
    ruling n log r id = some (.error (conflict r id)) := by
  rcases htaken with hgranted | ⟨rfl, hstarted⟩
  · rcases cases_of_granted h hgranted with ⟨rfl, hstarted⟩ | ⟨hrole, hr, hcreated⟩
    · rw [ruling_creator hn, if_pos hstarted]
    · rw [ruling_other hr hrole, if_neg (by simp [hcreated]), if_pos hgranted]
  · rw [ruling_creator hn, if_pos hstarted]

end Labyrinth.Engine

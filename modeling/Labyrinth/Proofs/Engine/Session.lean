import Labyrinth.Engine.Basic
import Mathlib.Data.List.Perm.Subperm
import Mathlib.Data.List.Nodup

/-!
# Sessions of the engine

A sound session holds each role of its scene at most once. It has begun when it holds all of them,
and it is available when it holds its creator.
-/

namespace Labyrinth

/-! ## Tables by role -/

namespace Role

variable {β : Type} {r r' : Role} {table : List (Role × β)}

theorem lookup_filter_ne (h : r' ≠ r) : (table.filter (·.1 != r)).lookup r' = table.lookup r' := by
  induction table with
  | nil => rfl
  | cons a table ih =>
    obtain ⟨q, b⟩ := a
    by_cases hq : q = r
    · subst hq
      have hne : (r' == q) = false := beq_eq_false_iff_ne.mpr h
      rw [List.filter_cons_of_neg (by simp), ih, List.lookup_cons, hne]
    · rw [List.filter_cons_of_pos (by simpa using hq), List.lookup_cons, List.lookup_cons, ih]

theorem lookup_replace {b : β} :
    (table.map fun a => if a.1 = r then (r, b) else a).lookup r' =
      if r' = r then (table.lookup r).map fun _ => b else table.lookup r' := by
  induction table with
  | nil => split <;> rfl
  | cons a table ih =>
    obtain ⟨q, b'⟩ := a
    by_cases hq : q = r
    · subst hq
      by_cases hr : r' = q
      · subst hr
        simp
      · have hne : (r' == q) = false := beq_eq_false_iff_ne.mpr hr
        simpa [List.lookup_cons, hne, hr] using ih
    · by_cases hr : r' = q
      · subst hr
        simp [hq]
      · have hne : (r' == q) = false := beq_eq_false_iff_ne.mpr hr
        have hne' : (r == q) = false := beq_eq_false_iff_ne.mpr (Ne.symm hq)
        simpa [List.lookup_cons, hne, hne', hq] using ih

end Role

namespace Engine

variable {n now : Nat} {r r' : Role} {p : Pose} {limit : Option Nat}

namespace Session

variable {s : Session}

/-! ## Agents -/

theorem agent?_enrol :
    (s.enrol r p now).agent? r' = if r' = r then some p else s.agent? r' := by
  simp only [agent?, enrol, List.lookup_append]
  split
  · subst r'
    have hnone : (s.agents.filter (·.1 != r)).lookup r = none := by
      rw [List.lookup_eq_none_iff]
      intro a ha
      have := (List.mem_filter.mp ha).2
      simpa [bne_comm] using this
    rw [hnone, List.lookup_cons_self, Option.none_or]
  · rename_i hne
    have hsingle : [(r, p)].lookup r' = none := by
      rw [List.lookup_cons, beq_eq_false_iff_ne.mpr hne]
      rfl
    rw [Role.lookup_filter_ne hne, hsingle, Option.or_none]

theorem agent?_enrol_of_out (hout : s.agent? r = none) :
    (s.enrol r p now).agent? r' = (s.agent? r').or (if r' = r then some p else none) := by
  rw [agent?_enrol]
  split
  · subst r'
    rw [hout]
    rfl
  · rw [Option.or_none]

theorem isSome_agent?_enrol :
    ((s.enrol r p now).agent? r').isSome ↔ r' = r ∨ (s.agent? r').isSome := by
  rw [agent?_enrol]
  split <;> simp_all

theorem agent?_setPose :
    (s.setPose r p).agent? r' =
      if r' = r then (s.agent? r).map fun _ => p else s.agent? r' := by
  simp only [agent?, setPose]
  exact Role.lookup_replace

theorem isSome_agent?_setPose : ((s.setPose r p).agent? r').isSome = (s.agent? r').isSome := by
  rw [agent?_setPose]
  split
  · subst r'
    exact Option.isSome_map
  · rfl

theorem map_fst_setPose : (s.setPose r p).agents.map Prod.fst = s.agents.map Prod.fst := by
  simp only [Session.setPose, List.map_map]
  refine List.map_congr_left fun a _ => ?_
  rw [Function.comp]
  split <;> simp_all

theorem agent?_isSome_iff : (s.agent? r).isSome ↔ r ∈ s.agents.map Prod.fst := by
  simp only [agent?, List.lookup_isSome_iff, beq_iff_eq, List.mem_map]
  exact exists_congr fun a => and_congr_right fun _ => eq_comm

theorem filter_agents (hout : s.agent? r = none) : s.agents.filter (·.1 != r) = s.agents := by
  have hmem : r ∉ s.agents.map Prod.fst := by
    rw [← agent?_isSome_iff, hout]
    simp
  apply List.filter_eq_self.mpr
  intro a ha
  have hne : a.1 ≠ r := fun heq => hmem (heq ▸ List.mem_map_of_mem ha)
  simpa using hne

theorem begunAt_enrol {b : Nat} (h : s.begunAt = some b) :
    (s.enrol r p now).begunAt = some b := by
  simp only [enrol, h]
  rfl

theorem begunAt_enrol_eq_some {b : Nat} (h : (s.enrol r p now).begunAt = some b) :
    s.begunAt = some b ∨ b = now := by
  cases hbegun : s.begunAt with
  | some b' => exact .inl (hbegun ▸ (begunAt_enrol hbegun).symm.trans h)
  | none =>
    simp only [enrol, hbegun] at h
    split at h
    · exact .inr (Option.some.inj h).symm
    · cases h

/-! ## The time -/

theorem isRunning_checkTime :
    (s.checkTime limit now).isRunning ↔
      s.begunAt.isSome ∧ s.ended = false ∧ s.isOver limit now = false := by
  simp [Session.isRunning, Session.checkTime]

theorem exists_begunAt_of_isRunning {most : Nat} (h : (s.checkTime (some most) now).isRunning) :
    ∃ begun, s.begunAt = some begun ∧ now < begun + most := by
  obtain ⟨hbegun, -, hover⟩ := isRunning_checkTime.mp h
  obtain ⟨begun, hbegun⟩ := Option.isSome_iff_exists.mp hbegun
  simp only [isOver, hbegun, decide_eq_false_iff_not] at hover
  exact ⟨begun, hbegun, by omega⟩

theorem ended_of_not_isRunning (h : ¬ s.isRunning) (hbegun : s.begunAt.isSome) : s.ended := by
  simpa [Session.isRunning, hbegun] using h

theorem isOver_mono {now' : Nat} (hle : now ≤ now') (h : s.isOver limit now) :
    s.isOver limit now' := by
  unfold isOver at h ⊢
  cases hbegun : s.begunAt with
  | none =>
    rw [hbegun] at h
    cases h
  | some begun =>
    rw [hbegun] at h
    cases limit with
    | none => cases h
    | some limit =>
      simp only [decide_eq_true_eq] at h ⊢
      omega

/-- The session is running at time `t`, if nothing happens to it before. -/
def RunsAt (limit : Option Nat) (t : Nat) (session? : Option Session) : Prop :=
  ∃ s, session? = some s ∧ (s.checkTime limit t).isRunning

theorem runsAt_some {t : Nat} : RunsAt limit t (some s) ↔ (s.checkTime limit t).isRunning := by
  constructor
  · rintro ⟨_, ⟨⟩, hrun⟩
    exact hrun
  · exact fun hrun => ⟨s, rfl, hrun⟩

theorem runsAt_none {t : Nat} {session? : Option Session} :
    RunsAt none t session? ↔ ∃ s, session? = some s ∧ s.isRunning := by
  refine exists_congr fun s => and_congr_right fun _ => ?_
  have hover : s.isOver none t = false := by
    unfold isOver
    split <;> simp_all
  rw [isRunning_checkTime, hover]
  simp [Session.isRunning]

theorem RunsAt.checkTime {t : Nat} (h : RunsAt limit t (some s)) (hle : now ≤ t) :
    RunsAt limit t (some (s.checkTime limit now)) := by
  rw [runsAt_some, isRunning_checkTime] at h ⊢
  obtain ⟨hbegun, hended, hover⟩ := h
  have hnot : s.isOver limit now = false :=
    Bool.eq_false_iff.mpr fun h => Bool.eq_false_iff.mp hover (isOver_mono hle h)
  refine ⟨hbegun, ?_, hover⟩
  change (s.ended || s.isOver limit now) = false
  rw [hended, hnot]
  rfl

theorem RunsAt.of_same {s' : Session} {t : Nat} (h : RunsAt limit t (some s))
    (hbegun : s'.begunAt = s.begunAt) (hended : s'.ended = s.ended) :
    RunsAt limit t (some s') := by
  rw [runsAt_some, isRunning_checkTime] at h ⊢
  unfold isOver at h ⊢
  rwa [hbegun, hended]

theorem RunsAt.enrol {t : Nat} (h : RunsAt limit t (some s)) :
    RunsAt limit t (some (s.enrol r p now)) := by
  obtain ⟨b, hb⟩ := Option.isSome_iff_exists.mp (isRunning_checkTime.mp (runsAt_some.mp h)).1
  exact h.of_same ((begunAt_enrol hb).trans hb.symm) rfl

/-! ## Sound sessions -/

structure Sound (n : Nat) (s : Session) : Prop where
  expected : s.expected = n
  nodup : (s.agents.map Prod.fst).Nodup
  bound : ∀ r ∈ s.agents.map Prod.fst, r.number < n
  begun : s.begunAt.isSome ↔ n ≤ s.agents.length
  available : s.available ↔ (s.agent? .creator).isSome

namespace Sound

theorem ofExpected (hn : 0 < n) : (Session.ofExpected n).Sound n where
  expected := rfl
  nodup := List.nodup_nil
  bound := by simp [Session.ofExpected]
  begun := by simp [Session.ofExpected]; omega
  available := by simp [Session.ofExpected, agent?]

theorem enrol (h : s.Sound n) (hout : s.agent? r = none) (hr : r.number < n)
    (havail : s.available ∨ r = .creator) :
    ({ s with available := true }.enrol r p now).Sound n := by
  have hmem : r ∉ s.agents.map Prod.fst := by
    rw [← agent?_isSome_iff, hout]
    simp
  have hagents := filter_agents hout
  have hmap : ({ s with available := true }.enrol r p now).agents.map Prod.fst =
      s.agents.map Prod.fst ++ [r] := by
    simp [Session.enrol, hagents]
  constructor
  case expected => exact h.expected
  case nodup =>
    rw [hmap]
    exact List.nodup_append.mpr ⟨h.nodup, List.nodup_singleton r, by
      rintro q hq _ hr rfl
      exact hmem (List.mem_singleton.mp hr ▸ hq)⟩
  case bound =>
    intro q hq
    rw [hmap, List.mem_append, List.mem_singleton] at hq
    rcases hq with hq | rfl
    · exact h.bound q hq
    · exact hr
  case begun =>
    have hbegun := h.begun
    simp only [Session.enrol, hagents, List.length_append, List.length_singleton, h.expected]
    cases hb : s.begunAt with
    | some t =>
      rw [hb] at hbegun
      simp only [Option.isSome_some, true_iff] at hbegun
      exact iff_of_true rfl (by omega)
    | none =>
      by_cases hn : n ≤ s.agents.length + 1
      · simp [hn]
      · simp [hn]
  case available =>
    have hcreator : (({ s with available := true }.enrol r p now).agent? .creator).isSome := by
      rw [agent?_enrol]
      split
      · rfl
      · rename_i hne
        exact h.available.mp (havail.resolve_right (Ne.symm hne))
    exact iff_of_true rfl hcreator

theorem exists_missing (h : s.Sound n) (hb : s.begunAt = none) :
    ∃ r : Role, r.number < n ∧ s.agent? r = none := by
  by_contra hall
  push Not at hall
  have hsub : (List.range n).map Role.mk ⊆ s.agents.map Prod.fst := by
    intro r hr
    obtain ⟨i, hi, rfl⟩ := List.mem_map.mp hr
    rw [← agent?_isSome_iff, Option.isSome_iff_ne_none]
    exact hall ⟨i⟩ (List.mem_range.mp hi)
  have hnodup : ((List.range n).map Role.mk).Nodup :=
    List.nodup_range.map fun _ _ heq => Role.mk.inj heq
  have hle := (hnodup.subperm hsub).length_le
  have := h.begun.mpr (by simpa using hle)
  rw [hb] at this
  cases this

theorem isSome_agent? (h : s.Sound n) (hb : s.begunAt.isSome) (hr : r.number < n) :
    (s.agent? r).isSome := by
  by_contra hout
  rw [agent?_isSome_iff] at hout
  have hnodup : (r :: s.agents.map Prod.fst).Nodup := List.nodup_cons.mpr ⟨hout, h.nodup⟩
  have hsub : r :: s.agents.map Prod.fst ⊆ (List.range n).map Role.mk := by
    intro q hq
    refine List.mem_map.mpr ⟨q.number, List.mem_range.mpr ?_, rfl⟩
    rcases List.mem_cons.mp hq with rfl | hq
    · exact hr
    · exact h.bound q hq
  have hle := (hnodup.subperm hsub).length_le
  have hall := h.begun.mp hb
  simp only [List.length_cons, List.length_map, List.length_range] at hle
  omega

theorem checkTime (h : s.Sound n) : (s.checkTime limit now).Sound n :=
  ⟨h.expected, h.nodup, h.bound, h.begun, h.available⟩

theorem setPose (h : s.Sound n) : (s.setPose r p).Sound n := by
  have hmap : (s.setPose r p).agents.map Prod.fst = s.agents.map Prod.fst := map_fst_setPose
  refine ⟨h.expected, hmap ▸ h.nodup, hmap ▸ h.bound, ?_, ?_⟩
  · simpa [Session.setPose] using h.begun
  · rw [agent?_isSome_iff, hmap, ← agent?_isSome_iff]
    exact h.available

end Sound

end Session

end Engine

end Labyrinth

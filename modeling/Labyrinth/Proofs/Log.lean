import Mathlib.Data.List.Induction

/-!
# Logs

A log grows at its end. Most laws of a log say of each entry what the entries before it allow.
-/

namespace Labyrinth

variable {α : Type} {log before after : List α} {e q : α}

theorem append_eq_append_cons_iff :
    log ++ [q] = before ++ e :: after ↔
      after = [] ∧ log = before ∧ q = e ∨
        ∃ after', after = after' ++ [q] ∧ log = before ++ e :: after' := by
  constructor
  · intro h
    rcases List.eq_nil_or_concat after with rfl | ⟨after', q', rfl⟩
    · obtain ⟨hlog, hq⟩ := List.append_inj' h rfl
      exact .inl ⟨rfl, hlog, List.singleton_inj.mp hq⟩
    · rw [List.concat_eq_append, ← List.cons_append, ← List.append_assoc] at h
      obtain ⟨hlog, hq⟩ := List.append_inj' h rfl
      exact .inr ⟨after', by rw [List.concat_eq_append, List.singleton_inj.mp hq], hlog⟩
  · rintro (⟨rfl, rfl, rfl⟩ | ⟨after', rfl, rfl⟩)
    · rfl
    · rw [List.append_assoc, List.cons_append]

theorem forall_mem_append_singleton {p : α → Prop} (h : ∀ e ∈ log, p e) (hq : p q) :
    ∀ e ∈ log ++ [q], p e :=
  List.forall_mem_append.mpr ⟨h, List.forall_mem_singleton.mpr hq⟩

/-- Each entry of a log is allowed by those before it. -/
def Lawful (law : List α → α → Prop) (log : List α) : Prop :=
  ∀ before e after, log = before ++ e :: after → law before e

theorem lawful_nil {law : List α → α → Prop} : Lawful law [] := by
  intro before e after h
  simp at h

theorem Lawful.snoc {law : List α → α → Prop} (h : Lawful law log) (hq : law log q) :
    Lawful law (log ++ [q]) := by
  intro before e after heq
  rcases append_eq_append_cons_iff.mp heq with ⟨rfl, rfl, rfl⟩ | ⟨after', rfl, hlog⟩
  · exact hq
  · exact h before e after' hlog

theorem Lawful.of_append {law : List α → α → Prop} {more : List α} (h : Lawful law (log ++ more)) :
    Lawful law log := by
  intro before e after heq
  refine h before e (after ++ more) ?_
  rw [heq, List.append_assoc, List.cons_append]

theorem Lawful.exists_of_mem {law : List α → α → Prop} (h : Lawful law log) (he : e ∈ log) :
    ∃ before after, log = before ++ e :: after ∧ law before e := by
  obtain ⟨before, after, heq⟩ := List.append_of_mem he
  exact ⟨before, after, heq, h before e after heq⟩

theorem Lawful.length_filter_le_one {p : α → Bool}
    (h : Lawful (fun before e => p e → before.any p = false) log) :
    (log.filter p).length ≤ 1 := by
  induction log using List.reverseRecOn with
  | nil => exact Nat.zero_le _
  | append_singleton log q ih =>
    rw [List.filter_append, List.length_append]
    cases hq : p q with
    | false =>
      rw [List.filter_cons_of_neg (Bool.eq_false_iff.mp hq)]
      exact ih h.of_append
    | true =>
      have hnone : log.filter p = [] := by
        simpa [List.filter_eq_nil_iff] using h log q [] rfl hq
      rw [hnone, List.length_nil, Nat.zero_add]
      exact List.length_filter_le p [q]

end Labyrinth

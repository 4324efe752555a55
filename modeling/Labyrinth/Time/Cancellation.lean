/-!
# Cancellation

Times are whole milliseconds of a virtual clock. A cancellation happens at one time or never. It
cuts short a nap that has not ended by then.
-/

namespace Labyrinth

/-- When everything is cancelled, if ever. -/
abbrev Cancellation := Option Nat

namespace Cancellation

/-- The cancellation has come by a time, or comes at it. -/
def reached (c : Cancellation) (now : Nat) : Bool :=
  match c with
  | none => false
  | some t => decide (t ≤ now)

/-- A nap that has been taken: when it ended, and whether it was long enough. -/
structure Nap where
  wokenAt : Nat
  rested : Bool
deriving DecidableEq

/-- A nap that ends at the very moment of the cancellation is not cut short. -/
def nap (c : Cancellation) (now span : Nat) : Nap :=
  match c with
  | none => ⟨now + span, true⟩
  | some t => if t < now + span then ⟨max now t, false⟩ else ⟨now + span, true⟩

theorem reached_eq_false_of_le {c : Cancellation} {t t' : Nat} (hle : t ≤ t')
    (h : c.reached t' = false) : c.reached t = false := by
  cases c with
  | none => rfl
  | some stop => exact decide_eq_false fun hstop => of_decide_eq_false h (Nat.le_trans hstop hle)

theorem le_wokenAt_nap (c : Cancellation) (now span : Nat) : now ≤ (c.nap now span).wokenAt := by
  unfold nap; split
  · exact Nat.le_add_right _ _
  · split
    · exact Nat.le_max_left _ _
    · exact Nat.le_add_right _ _

theorem wokenAt_nap_le (c : Cancellation) (now span : Nat) :
    (c.nap now span).wokenAt ≤ now + span := by
  unfold nap; split
  · exact Nat.le_refl _
  · split
    · exact Nat.max_le.2 ⟨Nat.le_add_right _ _, Nat.le_of_lt ‹_›⟩
    · exact Nat.le_refl _

theorem reached_wokenAt_nap {c : Cancellation} {now span : Nat}
    (h : (c.nap now span).rested = false) : c.reached (c.nap now span).wokenAt := by
  cases c with
  | none => cases h
  | some t =>
    unfold nap at h ⊢
    by_cases hcut : t < now + span
    · simp only [if_pos hcut]
      exact decide_eq_true (Nat.le_max_right now t)
    · simp only [if_neg hcut] at h
      cases h

theorem wokenAt_nap_of_rested {c : Cancellation} {now span : Nat} (h : (c.nap now span).rested) :
    (c.nap now span).wokenAt = now + span := by
  cases c with
  | none => rfl
  | some t =>
    unfold nap at h ⊢
    by_cases hcut : t < now + span
    · simp only [if_pos hcut] at h
      cases h
    · simp only [if_neg hcut]

theorem nap_of_live {c : Cancellation} {now span : Nat} (h : c.reached (now + span) = false) :
    c.nap now span = ⟨now + span, true⟩ := by
  cases c with
  | none => rfl
  | some stop => exact if_neg fun hlt => of_decide_eq_false h (Nat.le_of_lt hlt)

theorem wokenAt_nap_of_le {stop now span : Nat} (h : stop ≤ now + span) :
    (nap (some stop) now span).wokenAt = max now stop := by
  unfold nap
  by_cases hcut : stop < now + span
  · simp only [if_pos hcut]
  · simp only [if_neg hcut]
    omega

theorem reached_wokenAt_of_reached {c : Cancellation} {now span : Nat}
    (h : c.reached (now + span)) : c.reached (c.nap now span).wokenAt := by
  cases c with
  | none => cases h
  | some stop =>
    rw [wokenAt_nap_of_le (of_decide_eq_true h)]
    exact decide_eq_true (Nat.le_max_right now stop)

theorem nap_of_live_wokenAt {c : Cancellation} {now span : Nat}
    (h : c.reached (c.nap now span).wokenAt = false) : c.nap now span = ⟨now + span, true⟩ :=
  nap_of_live (eq_false_of_ne_true fun hreached =>
    Bool.false_ne_true (h.symm.trans (reached_wokenAt_of_reached hreached)))

end Cancellation

end Labyrinth

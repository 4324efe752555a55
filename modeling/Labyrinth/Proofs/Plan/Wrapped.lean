import Labyrinth.Proofs.Plan.Replay

/-!
# Coordinates that wrap around

On coordinates of 32 bits commands lead where they lead on an unbounded floor, wrapped around in the
end. Two adjacent cells are adjacent still when both are wrapped, so a plan stays the same too.
-/

namespace Labyrinth

theorem wrap_add_wrap (a d : Int) : wrap (wrap a + d) = wrap (a + d) := by
  unfold wrap
  omega

theorem wrap_sub_wrap (a b : Int) : wrap (wrap a - wrap b) = wrap (a - b) := by
  unfold wrap
  omega

namespace Cell

@[simp] theorem wrapped_wrapped (c : Cell) : c.wrapped.wrapped = c.wrapped := by
  have h := fun a => wrap_add_wrap a 0
  simp only [Int.add_zero] at h
  simp [wrapped, h]

theorem wrapped_offset (c : Cell) (dx dz : Int) :
    (c.wrapped.offset dx dz).wrapped = (c.offset dx dz).wrapped := by
  simp [wrapped, offset, wrap_add_wrap]

end Cell

/-! ## Replays -/

namespace Pose

variable {p : Pose} {c : Command} {cs : List Command}

def wrapped (p : Pose) : Pose := { p with cell := p.cell.wrapped }

theorem wrapped_of_fits (h : p.cell.Fits) : p.wrapped = p := by
  unfold wrapped
  rw [h]

theorem wrapped_apply (p : Pose) (c : Command) :
    (p.wrapped.apply c).wrapped = (p.apply c).wrapped := by
  cases c with
  | turnLeft | turnRight => simp [wrapped, apply]
  | moveForward => simp [wrapped, apply, Cell.wrapped_offset]

theorem obey_wrapped (p : Pose) (c : Command) (cells : List Cell) :
    Replay.obey ⟨p.wrapped, cells⟩ c = ⟨(p.apply c).wrapped,
      if c = .moveForward then cells ++ [(p.apply c).cell.wrapped] else cells⟩ := by
  change (⟨(p.wrapped.apply c).wrapped,
    if c = .moveForward then cells ++ [(p.wrapped.apply c).wrapped.cell] else cells⟩ : Replay) = _
  rw [wrapped_apply]
  rfl

theorem foldl_obey (p : Pose) (cs : List Command) (before : List Cell) :
    cs.foldl Replay.obey ⟨p.wrapped, before ++ [p.cell.wrapped]⟩ =
      ⟨(p.applyAll cs).wrapped, before ++ (p.visited cs).map Cell.wrapped⟩ := by
  induction cs generalizing p before with
  | nil => rfl
  | cons c cs ih =>
    rw [List.foldl_cons, obey_wrapped, applyAll_cons]
    by_cases hc : c = .moveForward
    · subst hc
      rw [if_pos rfl, ih, visited, List.map_cons, List.append_assoc]
      rfl
    · rw [if_neg hc, ← Plan.cell_apply_of_turn hc p, ih, visited_cons_of_turn hc]

theorem replay_eq (h : p.cell.Fits) (cs : List Command) :
    p.replay cs = ⟨(p.applyAll cs).wrapped, (p.visited cs).map Cell.wrapped⟩ := by
  have hfold := foldl_obey p cs []
  rw [wrapped_of_fits h, h] at hfold
  exact hfold

theorem replay_eq_of_fits (h : ∀ c ∈ p.visited cs, c.Fits) :
    p.replay cs = ⟨p.applyAll cs, p.visited cs⟩ := by
  obtain ⟨path, hpath⟩ := p.exists_visited cs
  have hlast := List.mem_of_getLast? (p.getLast?_visited cs)
  have hsame : (p.visited cs).map Cell.wrapped = p.visited cs := 
    (List.map_congr_left h).trans (List.map_id' _)
  rw [replay_eq (h p.cell (hpath ▸ List.mem_cons_self)), wrapped_of_fits (h _ hlast), hsame]

end Pose

/-! ## Plans -/

namespace Plan

variable {i : Nat} {p : Pose} {path : List Cell} {actions : List Action} {a b : Cell}

theorem requiredWrapped?_wrapped (a b : Cell) :
    requiredWrapped? a.wrapped b.wrapped = requiredWrapped? a b := by
  simp [requiredWrapped?, Cell.wrapped, wrap_sub_wrap]

theorem requiredWrapped?_eq (h : a.Adjacent b) : requiredWrapped? a b = required? a b := by
  have hwrap : wrap (b.x - a.x) = b.x - a.x ∧ wrap (b.z - a.z) = b.z - a.z := by
    unfold Cell.Adjacent at h
    unfold wrap
    omega
  rw [requiredWrapped?, hwrap.1, hwrap.2, required?]

theorem walk_congr {r r' : Cell → Cell → Option Heading}
    (h : (p.cell :: path).IsChain fun a b => r a b = r' a b) (i : Nat) :
    walk r i p path = walk r' i p path := by
  induction path generalizing p i with
  | nil => rfl
  | cons next rest ih =>
    obtain ⟨hnext, hrest⟩ := List.isChain_cons_cons.mp h
    unfold walk
    rw [hnext]
    cases r' p.cell next with
    | none => rfl
    | some g =>
      dsimp only
      rw [ih (p := ⟨next, g⟩) hrest]

/-- On a path of adjacent cells it does not matter whether differences wrap around. -/
theorem ofPathWrapped_eq (h : path.IsChain Cell.Adjacent) (heading : Heading) :
    ofPathWrapped path heading = ofPath path heading := by
  cases path with
  | nil => rfl
  | cons first rest =>
    have hsame := h.imp fun a b => requiredWrapped?_eq (a := a) (b := b)
    exact walk_congr (p := ⟨first, heading⟩) hsame 1

/-- An action whose target is wrapped around. -/
def wrapTarget (a : Action) : Action := { a with target := a.target.wrapped }

theorem walk_wrapped (h : walk requiredWrapped? i p path = .ok actions) :
    walk requiredWrapped? i p.wrapped (path.map Cell.wrapped) = .ok (actions.map wrapTarget) := by
  induction path generalizing i p actions with
  | nil =>
    obtain rfl : [] = actions := Except.ok.inj h
    rfl
  | cons next rest ih =>
    obtain ⟨g, later, hnext, hlater, rfl⟩ := walk_eq_ok_iff.mp h
    rw [← requiredWrapped?_wrapped] at hnext
    refine walk_eq_ok_iff.mpr ⟨g, _, hnext, ih hlater, ?_⟩
    simp [wrapTarget, Pose.wrapped]

theorem ofPathWrapped_wrapped {heading : Heading} (h : ofPathWrapped path heading = .ok actions) :
    ofPathWrapped (path.map Cell.wrapped) heading = .ok (actions.map wrapTarget) := by
  cases path with
  | nil =>
    obtain rfl : [] = actions := Except.ok.inj h
    rfl
  | cons first rest => exact walk_wrapped (p := ⟨first, heading⟩) h

end Plan

end Labyrinth

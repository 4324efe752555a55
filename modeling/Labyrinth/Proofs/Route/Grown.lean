import Labyrinth.Proofs.Route.Layers

/-!
# Frontiers that have grown

A frontier that has grown `j` times, past other frontiers that may be different each time and none
of which it met, holds the cells within distance `j` of its root. Growing ends with a meeting
exactly if the other frontier holds a cell at distance `j + 1`. From every cell that is held, the
way back to the root comes to an end and is a shortest walk.
-/

namespace Labyrinth.Frontier

variable {g : Grid} {root c : Cell} {sought : Cell → Bool} {f : Frontier} {w : List Cell}
  {d j : Nat}

/-!
## One queue

The layer and what is found beyond it may stand in one queue, from which cells are taken at the
front while others are put to its end. The layer is then so many cells as there were at first.
-/

/-- Takes up the new ones of the neighbours of `here` at the end of the queue, until one of them is
sought. -/
def enqueue (sought : Cell → Bool) (here : Cell) (f : Frontier) :
    List Cell → Frontier × Option Cell
  | [] => (f, none)
  | n :: ns =>
    if f.parents.contains n then f.enqueue sought here ns
    else
      let parents := f.parents.insert n (some here)
      if sought n then (⟨parents, f.layer⟩, some n)
      else enqueue sought here ⟨parents, f.layer ++ [n]⟩ ns

/-- Takes so many cells from the front of the queue and visits them, until a cell is found that is
sought. -/
def visitFirst (grid : Grid) (sought : Cell → Bool) : Nat → Frontier → Frontier × Option Cell
  | 0, f => (f, none)
  | n + 1, f =>
    match f.layer with
    | [] => (f, none)
    | c :: rest =>
      let r := enqueue sought c ⟨f.parents, rest⟩ (grid.openNeighbors c)
      match r.2 with
      | some _ => r
      | none => visitFirst grid sought n r.1

/-- Visits as many cells as the queue has at first. What is found waits behind them. -/
def expand (grid : Grid) (sought : Cell → Bool) (f : Frontier) : Frontier × Option Cell :=
  f.visitFirst grid sought f.layer.length

theorem enqueue_eq {gr : Growth} {here : Cell} (rest ns : List Cell) (hnone : gr.meeting = none) :
    enqueue sought here ⟨gr.parents, rest ++ gr.found.reverse⟩ ns =
      (⟨(gr.visit sought here ns).parents, rest ++ (gr.visit sought here ns).found.reverse⟩,
        (gr.visit sought here ns).meeting) := by
  -- What is found stands in the order of discovery here, and the other way round in a growth.
  induction ns generalizing gr with
  | nil => simp [enqueue, Growth.visit, hnone]
  | cons n ns ih =>
    unfold enqueue Growth.visit
    split
    · exact ih hnone
    · dsimp only
      split
      · rfl
      · have hrest := @ih ⟨gr.parents.insert n (some here), n :: gr.found, gr.meeting⟩ hnone
        rw [List.reverse_cons, ← List.append_assoc] at hrest
        exact hrest

theorem visitFirst_eq {gr : Growth} (cs : List Cell) (hnone : gr.meeting = none) :
    let q := visitFirst g sought cs.length ⟨gr.parents, cs ++ gr.found.reverse⟩
    let r := gr.visitAll g sought cs
    q.1.parents = r.parents ∧ q.2 = r.meeting ∧
      (r.meeting = none → q.1.layer = r.found.reverse) := by
  induction cs generalizing gr with
  | nil => simp [visitFirst, Growth.visitAll, hnone]
  | cons c cs ih =>
    simp only [List.length_cons, List.cons_append, visitFirst, Growth.visitAll,
      enqueue_eq _ _ hnone]
    cases hm : (gr.visit sought c (g.openNeighbors c)).meeting with
    | some m => simp [hm]
    | none => exact ih hm

/-- With one queue a frontier comes to hold the same cells, found from the same ones, and meets the
same one. If it meets none, its next layer is the same too. -/
theorem expand_eq_grow (g : Grid) (sought : Cell → Bool) (f : Frontier) :
    (f.expand g sought).1.parents = (f.grow g sought).1.parents ∧
      (f.expand g sought).2 = (f.grow g sought).2 ∧
      ((f.grow g sought).2 = none → (f.expand g sought).1.layer = (f.grow g sought).1.layer) := by
  have h := @visitFirst_eq g sought ⟨f.parents, [], none⟩ f.layer rfl
  rw [List.reverse_nil, List.append_nil] at h
  exact h

/-! ## The way back -/

/-- The cells from `c` back: behind each cell stands the one from which it was found, and the last one
was found from none. -/
inductive Retraces (f : Frontier) : Cell → List Cell → Prop where
  | stop {c : Cell} (h : ∀ p, f.parents[c]? ≠ some (some p)) : Retraces f c [c]
  | step {c p : Cell} {w : List Cell} (h : f.parents[c]? = some (some p)) (hw : Retraces f p w) :
    Retraces f c (c :: w)

theorem Retraces.unique {v : List Cell} (h : f.Retraces c v) (h' : f.Retraces c w) : v = w := by
  induction h generalizing w with
  | stop hstop =>
    cases h' with
    | stop => rfl
    | step hp => exact absurd hp (hstop _)
  | step hp _ ih =>
    cases h' with
    | stop hstop => exact absurd hp (hstop _)
    | step hq hw =>
      obtain rfl := Option.some.inj (Option.some.inj (hp.symm.trans hq))
      rw [ih hw]

namespace Rooted

theorem retraces_walkBack {fuel : Nat} (h : Rooted g root f.parents) (hc : c ∈ f.parents)
    (hd : g.IsDist root c d) (hfuel : d ≤ fuel) : f.Retraces c (f.walkBack fuel c) := by
  induction fuel generalizing c d with
  | zero =>
    rcases h.eq_root_or_parent hc hd with ⟨-, -, hnone⟩ | ⟨p, e, rfl, -⟩
    · exact .stop (by simp [hnone])
    · omega
  | succ fuel ih =>
    rcases h.eq_root_or_parent hc hd with ⟨-, -, hnone⟩ | ⟨p, e, rfl, hsome, hp, -, hpe⟩
    · rw [walkBack, hnone]
      exact .stop (by simp [hnone])
    · rw [walkBack, hsome]
      exact .step hsome (ih hp hpe (by omega))

theorem retraces_wayBack (h : Rooted g root f.parents) (hc : c ∈ f.parents)
    (hd : g.IsDist root c d) : f.Retraces c (f.wayBack c) :=
  h.retraces_walkBack hc hd (Nat.le_of_lt (h.lt_size hc hd))

theorem getElem?_root (h : Rooted g root f.parents) (hc : c ∈ f.parents) (hd : g.IsDist root c d) :
    f.parents[root]? = some none := by
  induction d generalizing c with
  | zero =>
    rcases h.eq_root_or_parent hc hd with ⟨-, rfl, hnone⟩ | ⟨p, e, he, -⟩
    · exact hnone
    · cases he
  | succ d ih =>
    rcases h.eq_root_or_parent hc hd with ⟨h0, -⟩ | ⟨p, e, he, -, hp, -, hpe⟩
    · cases h0
    · obtain rfl : d = e := by omega
      exact ih hp hpe

end Rooted

/-- The cells held can be traced back to the root. Every cell but the root was found from an adjacent
one that is a step closer to the root. The way back from a cell comes to an end, and its number of
steps is the distance of the cell. -/
structure Traced (g : Grid) (root : Cell) (f : Frontier) : Prop where
  origin : f.parents[root]? = some none
  parent : ∀ c ∈ f.parents, c ≠ root → ∃ p d, f.parents[c]? = some (some p) ∧ p ∈ f.parents ∧
    p.Adjacent c ∧ g.isOpen p ∧ g.IsDist root p d ∧ g.IsDist root c (d + 1)
  wayBack : ∀ c ∈ f.parents, ∃ d, g.IsDist root c d ∧
    (∀ w, f.Retraces c w ↔ w = f.wayBack c) ∧
      g.Walk c root (f.wayBack c) ∧ (f.wayBack c).length = d + 1

theorem Rooted.traced (h : Rooted g root f.parents) (hc : c ∈ f.parents) : Traced g root f where
  origin := by
    obtain ⟨d, hd⟩ := h.dist c hc
    exact h.getElem?_root hc hd
  parent b hb hne := by
    obtain ⟨d, hd⟩ := h.dist b hb
    rcases h.eq_root_or_parent hb hd with ⟨-, hroot, -⟩ | ⟨p, e, rfl, hsome, hp, hpb, hpe⟩
    · exact absurd hroot hne
    · exact ⟨p, e, hsome, hp, hpb, hpe.1.isOpen_right, hpe, hd⟩
  wayBack b hb := by
    obtain ⟨d, hd⟩ := h.dist b hb
    have hback := h.retraces_wayBack hb hd
    refine ⟨d, hd, fun w => ⟨fun hw => hw.unique hback, ?_⟩, h.walk_wayBack hb hd⟩
    rintro rfl
    exact hback

/-! ## Layer by layer -/

/-- Frontiers that have grown `j` times from the root, each time past another frontier that they did
not meet. -/
inductive Grown (g : Grid) (root : Cell) : Nat → Frontier → Prop where
  | start : Grown g root 0 (ofRoot root)
  | grow {j : Nat} {f : Frontier} (other : Frontier) (h : Grown g root j f)
    (hnone : (f.grow g other.holds).2 = none) : Grown g root (j + 1) (f.grow g other.holds).1

theorem Grown.ball (h : Grown g root j f) (ho : g.isOpen root) : Ball g root j f := by
  induction h with
  | start => exact ball_ofRoot ho
  | grow other _ hnone ih => exact (ih.grow_none hnone).1

theorem Ball.grow_eq_none_iff (h : Ball g root j f) :
    (f.grow g sought).2 = none ↔ ∀ c, g.IsDist root c (j + 1) → ¬ sought c := by
  constructor
  · intro hnone c hc
    obtain ⟨hball, hnew⟩ := h.grow_none hnone
    rcases hnew c ((hball.held c).mpr ⟨j + 1, Nat.le_refl _, hc⟩) with hold | hsought
    · obtain ⟨d, hd, hcd⟩ := (h.held c).mp hold
      have := hc.unique hcd
      omega
    · exact hsought
  · intro hnot
    cases hmeet : (f.grow g sought).2 with
    | none => rfl
    | some c =>
      obtain ⟨-, -, hc, hsought⟩ := h.grow_some hmeet
      exact absurd hsought (hnot c hc)

/-- A frontier that has grown `j` times from an open root without a meeting holds the cells within
distance `j`, and those at distance `j` stand in its queue, each of them once. If it grows past
another frontier, it meets it exactly if the other one holds a cell at distance `j + 1`, and the
cell in which they meet is such a cell. All cells held can be traced back, before and after. -/
theorem Grown.layered (h : Grown g root j f) (ho : g.isOpen root) :
    (∀ c, c ∈ f.parents ↔ ∃ d ≤ j, g.IsDist root c d) ∧
      (∀ c, c ∈ f.layer ↔ g.IsDist root c j) ∧ f.layer.Nodup ∧ Traced g root f ∧
      ∀ other : Frontier,
        let r := f.grow g other.holds
        (r.2 = none ↔ ∀ c, g.IsDist root c (j + 1) → c ∉ other.parents) ∧
        (∀ c, r.2 = some c →
          g.IsDist root c (j + 1) ∧ c ∈ other.parents ∧ c ∈ r.1.parents ∧ Traced g root r.1) ∧
        (f.expand g other.holds).1.parents = r.1.parents ∧ (f.expand g other.holds).2 = r.2 ∧
        (r.2 = none → (f.expand g other.holds).1.layer = r.1.layer) := by
  have hball := h.ball ho
  have hroot : root ∈ f.parents := (hball.held root).mpr ⟨0, Nat.zero_le j, .self ho⟩
  refine ⟨hball.held, hball.layer, hball.nodup, hball.rooted.traced hroot, ?_⟩
  intro other r
  refine ⟨?_, fun c hmeet => ?_, expand_eq_grow g other.holds f⟩
  · simp only [Std.HashMap.mem_iff_contains]
    exact hball.grow_eq_none_iff
  · obtain ⟨hrooted, hc, hdist, hsought⟩ := hball.grow_some hmeet
    exact ⟨hdist, Std.HashMap.mem_iff_contains.mpr hsought, hc, hrooted.traced hc⟩

/-- In a room of four cells, from one corner past the opposite one. -/
theorem Grown.layered_room :
    let g : Grid := ⟨2, #[.floor, .floor, .floor, .floor]⟩
    let other := ofRoot ⟨1, 1⟩
    let f := ((ofRoot ⟨0, 0⟩).grow g other.holds).1
    Grown g ⟨0, 0⟩ 1 f ∧ g.isOpen ⟨0, 0⟩ ∧ f.layer.Nodup ∧ Traced g ⟨0, 0⟩ f ∧
      (f.grow g other.holds).2 = some ⟨1, 1⟩ ∧ g.IsDist ⟨0, 0⟩ ⟨1, 1⟩ 2 := by
  intro g other f
  have ho : g.isOpen ⟨0, 0⟩ := by decide
  have hsteps : ((ofRoot ⟨0, 0⟩).grow g other.holds).2 = none ∧
      (f.grow g other.holds).2 = some ⟨1, 1⟩ := by
    simp [Frontier.grow, Growth.visitAll, Growth.visit, ofRoot, holds, Grid.openNeighbors,
      Cell.neighbors, Cell.directions, Cell.offset, Grid.isOpen, Grid.get?, Grid.contains,
      Grid.index, g, other, f]
  obtain ⟨hpast, hmeet⟩ := hsteps
  have hf : Grown g ⟨0, 0⟩ 1 f := Grown.start.grow other hpast
  obtain ⟨-, -, hnodup, htraced, hgrow⟩ := hf.layered ho
  exact ⟨hf, ho, hnodup, htraced, hmeet, ((hgrow other).2.1 _ hmeet).1⟩

end Labyrinth.Frontier

import Labyrinth.Proofs.Route.Shortest
import Labyrinth.Route.Flood

/-!
# Distances

The queue of a flood holds what is left of one layer, and behind it what has been found of the next
one. So every distance that is kept is exact, and when the queue is empty one is kept for every cell
that can be reached.
-/

namespace Labyrinth

variable {g : Grid} {root a b c : Cell} {w : List Cell} {d j n : Nat}

namespace Flood

variable {f : Flood} {ns front back : List Cell}

/-! ## Visiting the neighbours of a cell -/

theorem getElem?_visit (f : Flood) (d : Nat) (ns : List Cell) (c : Cell) :
    (f.visit d ns).distances[c]? =
      if c ∈ ns ∧ c ∉ f.distances then some d else f.distances[c]? := by
  induction ns generalizing f with
  | nil => simp [visit]
  | cons n ns ih =>
    unfold visit
    split
    · rename_i hheld
      have hn : n ∈ f.distances := hheld
      have hiff : (c ∈ n :: ns ∧ c ∉ f.distances) ↔ (c ∈ ns ∧ c ∉ f.distances) := by
        rw [List.mem_cons, and_congr_left_iff]
        intro hc
        exact or_iff_right fun heq => hc (heq ▸ hn)
      simp only [ih, hiff]
    · rename_i hnew
      have hn : n ∉ f.distances := hnew
      rw [ih]
      by_cases hc : n = c
      · subst hc
        simp [hn]
      · simp [hc, Ne.symm hc, Std.HashMap.getElem?_insert]

theorem mem_visit_iff : c ∈ (f.visit d ns).distances ↔ c ∈ f.distances ∨ c ∈ ns := by
  rw [Std.HashMap.mem_iff_isSome_getElem?, getElem?_visit]
  split
  · simp [*]
  · rename_i hc
    rw [← Std.HashMap.mem_iff_isSome_getElem?]
    exact ⟨Or.inl, fun h => h.elim id fun hns => not_not.mp fun hout => hc ⟨hns, hout⟩⟩

theorem exists_queue_visit (f : Flood) (d : Nat) (ns : List Cell) :
    ∃ found, (f.visit d ns).queue = f.queue ++ found ∧
      ∀ c, c ∈ found ↔ c ∈ ns ∧ c ∉ f.distances := by
  induction ns generalizing f with
  | nil => exact ⟨[], by simp [visit]⟩
  | cons n ns ih =>
    unfold visit
    split
    · rename_i hheld
      have hn : n ∈ f.distances := hheld
      obtain ⟨found, hqueue, hfound⟩ := ih f
      refine ⟨found, hqueue, fun c => ?_⟩
      rw [hfound, List.mem_cons, and_congr_left_iff]
      intro hc
      exact (or_iff_right fun heq : c = n => hc (heq ▸ hn)).symm
    · rename_i hnew
      have hn : n ∉ f.distances := hnew
      obtain ⟨found, hqueue, hfound⟩ := ih _
      refine ⟨n :: found, by rw [hqueue, List.append_assoc]; rfl, fun c => ?_⟩
      rw [List.mem_cons, List.mem_cons, hfound, Std.HashMap.mem_insert, beq_iff_eq]
      by_cases hc : c = n
      · simp [hc, hn]
      · simp [hc, Ne.symm hc]

/-! ## The queue -/

/-- All cells within distance `j` have been found. Those at distance `j` from which the flood has not
spread yet stand at the front of its queue, and behind them stand those found at distance `j + 1`. -/
structure Spreading (g : Grid) (root : Cell) (j : Nat) (front back : List Cell) (f : Flood) : Prop
    where
  queue : f.queue = front ++ back
  front : ∀ c ∈ front, g.IsDist root c j
  back : ∀ c ∈ back, g.IsDist root c (j + 1)
  exact : ∀ c d, f.distances[c]? = some d → g.IsDist root c d
  within : ∀ c d, d ≤ j → g.IsDist root c d → c ∈ f.distances
  spread : ∀ c ∈ f.distances, c ∉ f.queue → ∀ n, c.Adjacent n → g.isOpen n → n ∈ f.distances

theorem spreading_ofStart (h : g.isOpen root) : Spreading g root 0 [root] [] (ofStart root) where
  queue := rfl
  front := by simpa using Grid.IsDist.self h
  back := by simp
  exact c d hd := by
    simp only [ofStart, Std.HashMap.getElem?_insert, beq_iff_eq] at hd
    split at hd
    · rename_i heq
      cases hd
      exact heq ▸ .self h
    · simp at hd
  within c d hle hd := by
    obtain rfl := Nat.le_zero.mp hle
    obtain ⟨rfl, -⟩ := Grid.IsDist.zero_iff.mp hd
    exact Std.HashMap.mem_insert_self
  spread c hc hout := by
    simp only [ofStart, Std.HashMap.mem_insert, beq_iff_eq, Std.HashMap.not_mem_empty,
      or_false] at hc
    exact absurd (List.mem_singleton.mpr hc.symm) hout

namespace Spreading

theorem getElem?_eq (h : Spreading g root j front back f) (hc : c ∈ f.distances)
    (hd : g.IsDist root c d) : f.distances[c]? = some d := by
  obtain ⟨e, he⟩ := Option.isSome_iff_exists.mp (Std.HashMap.mem_iff_isSome_getElem?.mp hc)
  rw [he, (h.exact c e he).unique hd]

theorem isDist_of_new (h : Spreading g root j front back f) (hc : g.IsDist root c j)
    (hcn : c.Adjacent b) (hb : g.isOpen b) (hnew : b ∉ f.distances) : g.IsDist root b (j + 1) :=
  hc.succ hcn hb fun d hle hd => hnew (h.within b d hle hd)

theorem step (h : Spreading g root j (c :: front) back f)
    (hrest : ∀ x ∈ front ++ back, x ∈ f.queue) :
    ∃ found, Spreading g root j front (back ++ found)
      ((f.pop (front ++ back) hrest).visit (j + 1) (g.openNeighbors c)) := by
  have hc := h.front c List.mem_cons_self
  have hnew : ∀ n, n ∈ g.openNeighbors c ∧ n ∉ f.distances → g.IsDist root n (j + 1) := by
    rintro n ⟨hn, hout⟩
    obtain ⟨hcn, hopen⟩ := Grid.mem_openNeighbors.mp hn
    exact h.isDist_of_new hc hcn hopen hout
  obtain ⟨found, hqueue, hfound⟩ :=
    exists_queue_visit (f.pop (front ++ back) hrest) (j + 1) (g.openNeighbors c)
  refine ⟨found, ?_⟩
  constructor
  case queue => rw [hqueue, ← List.append_assoc]; rfl
  case front => exact fun x hx => h.front x (List.mem_cons_of_mem c hx)
  case back =>
    intro x hx
    rcases List.mem_append.mp hx with hx | hx
    · exact h.back x hx
    · exact hnew x ((hfound x).mp hx)
  case exact =>
    intro x d hd
    rw [getElem?_visit] at hd
    split at hd
    · cases hd
      exact hnew x ‹_›
    · exact h.exact x d hd
  case within => exact fun x d hle hd => mem_visit_iff.mpr (.inl (h.within x d hle hd))
  case spread =>
    intro x hx hout n hxn hn
    rw [hqueue, List.mem_append, not_or] at hout
    obtain ⟨hout, hnot⟩ := hout
    rw [mem_visit_iff] at hx ⊢
    by_cases heq : x = c
    · exact .inr (Grid.mem_openNeighbors.mpr ⟨heq ▸ hxn, hn⟩)
    · have hheld : x ∈ f.distances := by
        rcases hx with hx | hx
        · exact hx
        · exact not_not.mp fun hnone => hnot ((hfound x).mpr ⟨hx, hnone⟩)
      refine .inl (h.spread x hheld ?_ n hxn hn)
      rw [h.queue, List.cons_append, List.mem_cons, not_or]
      exact ⟨heq, hout⟩

/-- Once a layer has spread, all of the next one has been found. -/
theorem advance (h : Spreading g root j [] back f) : Spreading g root (j + 1) back [] f where
  queue := by rw [h.queue, List.nil_append, List.append_nil]
  front := h.back
  back := by simp
  exact := h.exact
  within := by
    intro c d hle hd
    rcases Nat.le_succ_iff.mp hle with hle | rfl
    · exact h.within c d hle hd
    · -- The cell before `c` on a shortest walk is not in the queue, which is a step further off.
      obtain ⟨p, hp, hpc⟩ := hd.split
      refine h.spread p (h.within p j (Nat.le_refl j) hp) ?_ c hpc.adjacent_of_one hpc.isOpen_right
      rw [h.queue, List.nil_append]
      intro hback
      have := (h.back p hback).unique hp
      omega
  spread := h.spread

theorem mem_of_queue_eq_nil (h : Spreading g root j front back f) (hqueue : f.queue = [])
    (hd : g.IsDist root c d) : c ∈ f.distances := by
  induction d generalizing c with
  | zero => exact h.within c 0 (Nat.zero_le j) hd
  | succ d ih =>
    obtain ⟨p, hp, hpc⟩ := hd.split
    exact h.spread p (ih hp) (by simp [hqueue]) c hpc.adjacent_of_one hpc.isOpen_right

theorem getElem?_run (h : Spreading g root j front back f) :
    (f.run g)[c]? = some d ↔ g.IsDist root c d := by
  fun_induction run g f generalizing j front back with
  | case1 f hqueue =>
    exact ⟨h.exact c d, fun hd => h.getElem?_eq (h.mem_of_queue_eq_nil hqueue hd) hd⟩
  | case2 f x rest hqueue hrest hheld e =>
    rename_i ih
    -- If the layer has spread, the first cell of the queue is the first one of the next layer.
    have hlayer : ∃ j front back, Spreading g root j (x :: front) back f ∧ front ++ back = rest := by
      have hsplit := h.queue.symm.trans hqueue
      cases front with
      | nil =>
        obtain rfl : back = x :: rest := hsplit
        exact ⟨_, _, _, h.advance, List.append_nil _⟩
      | cons y front =>
        obtain ⟨rfl, hrest⟩ := List.cons.inj hsplit
        exact ⟨_, _, _, h, hrest⟩
    obtain ⟨j, front, back, h, rfl⟩ := hlayer
    have he : e = j := by
      have hx := h.front x List.mem_cons_self
      have hget := h.getElem?_eq hheld hx
      rw [Std.HashMap.getElem?_eq_some_getElem hheld] at hget
      exact Option.some.inj hget
    rw [he] at ih ⊢
    obtain ⟨found, h⟩ := h.step hrest
    exact ih h

end Spreading

end Flood

namespace Route

theorem distances_eq_some_iff : (distances g a)[c]? = some d ↔ g.IsDist a c d := by
  unfold distances
  split
  · exact (Flood.spreading_ofStart ‹_›).getElem?_run
  · rename_i ha
    simp only [Std.HashMap.getElem?_empty, reduceCtorEq, false_iff]
    exact fun hd => ha hd.1.isOpen_left

end Route

theorem Grid.Shortest.isDist (h : g.Shortest a b w) : g.IsDist a b (w.length - 1) := by
  have hpos := List.length_pos_iff.mpr h.1.ne_nil
  refine ⟨⟨w, h.1, by omega⟩, ?_⟩
  rintro m ⟨v, hv, hlen⟩
  have hle := h.2 v hv
  omega

theorem Grid.isDist_iff : g.IsDist a b d ↔
    (∃ w, g.Walk a b w ∧ w.length - 1 = d) ∧ ∀ w, g.Walk a b w → d ≤ w.length - 1 := by
  have hlength : ∀ {w}, g.Walk a b w → w.length - 1 + 1 = w.length := fun hw =>
    Nat.sub_add_cancel (List.length_pos_iff.mpr hw.ne_nil)
  constructor
  · rintro ⟨⟨w, hw, hd⟩, hmin⟩
    exact ⟨⟨w, hw, by omega⟩, fun v hv => hmin _ ⟨v, hv, (hlength hv).symm⟩⟩
  · rintro ⟨⟨w, hw, rfl⟩, hmin⟩
    refine ⟨⟨w, hw, (hlength hw).symm⟩, ?_⟩
    rintro m ⟨v, hv, hm⟩
    have hle := hmin v hv
    omega

namespace Route

/-! ## Every cell that can be reached -/

theorem mem_distances_iff : c ∈ distances g a ↔ ∃ w, g.Walk a c w := by
  rw [Std.HashMap.mem_iff_isSome_getElem?, Option.isSome_iff_exists]
  simp only [distances_eq_some_iff]
  constructor
  · rintro ⟨_, ⟨w, hw, -⟩, -⟩
    exact ⟨w, hw⟩
  · rintro ⟨w, hw⟩
    have hreach : g.Reaches a c (w.length - 1) := by
      have := List.length_pos_iff.mpr hw.ne_nil
      exact ⟨w, hw, by omega⟩
    obtain ⟨d, -, hd⟩ := hreach.exists_isDist
    exact ⟨d, hd⟩

/-- A distance is kept exactly for the cells to which a walk leads from the start, and it is the
least number of steps of such a walk. The search finds a route of as many steps to each of these
cells, and none to any other cell. -/
theorem distances_exact (g : Grid) (start : Cell) :
    (∀ c, c ∈ distances g start ↔ ∃ w, g.Walk start c w) ∧
      (¬ g.isOpen start → (distances g start).isEmpty) ∧
      (∀ c d, (distances g start)[c]? = some d →
        (∃ w, g.Walk start c w ∧ w.length - 1 = d) ∧
          ∀ w, g.Walk start c w → d ≤ w.length - 1) ∧
      (∀ c ∈ distances g start, shortest g start c ≠ [] ∧
        (distances g start)[c]? = some ((shortest g start c).length - 1)) ∧
      ∀ c ∉ distances g start, shortest g start c = [] := by
  have hfound : ∀ c, c ∈ distances g start ↔ shortest g start c ≠ [] := fun c => by
    rw [mem_distances_iff, shortest_ne_nil_iff]
  refine ⟨fun c => mem_distances_iff, fun hclosed => ?_, fun c d hd => ?_, fun c hc => ?_,
    fun c hc => ?_⟩
  · rw [distances, if_neg hclosed]
    exact Std.HashMap.isEmpty_empty
  · exact Grid.isDist_iff.mp (distances_eq_some_iff.mp hd)
  · have hne := (hfound c).mp hc
    exact ⟨hne, distances_eq_some_iff.mpr (shortest_of_ne_nil hne).isDist⟩
  · exact not_ne_iff.mp fun hne => hc ((hfound c).mpr hne)

/-- Two steps around a corner, a wall that no walk comes to, and a wall as the start. -/
theorem distances_exact_around_corner :
    let g : Grid := ⟨2, #[.floor, .floor, .wall, .floor]⟩
    (⟨1, 1⟩ ∈ distances g ⟨0, 0⟩ ∧
        (distances g ⟨0, 0⟩)[(⟨1, 1⟩ : Cell)]? = some ((shortest g ⟨0, 0⟩ ⟨1, 1⟩).length - 1)) ∧
      (⟨0, 1⟩ ∉ distances g ⟨0, 0⟩ ∧ shortest g ⟨0, 0⟩ ⟨0, 1⟩ = []) ∧
      ¬ g.isOpen ⟨0, 1⟩ ∧ (distances g ⟨0, 1⟩).isEmpty := by
  intro g
  obtain ⟨hmem, -, -, hfound, hnone⟩ := distances_exact g ⟨0, 0⟩
  have hclosed : ¬ g.isOpen ⟨0, 1⟩ := by decide
  have hin : ⟨1, 1⟩ ∈ distances g ⟨0, 0⟩ :=
    (hmem _).mpr ⟨[⟨0, 0⟩, ⟨1, 0⟩, ⟨1, 1⟩], rfl, rfl, by decide, by decide⟩
  have hout : ⟨0, 1⟩ ∉ distances g ⟨0, 0⟩ := by
    rw [hmem]
    rintro ⟨w, hw⟩
    exact hclosed (hw.floor _ hw.last_mem)
  exact ⟨⟨hin, (hfound _ hin).2⟩, ⟨hout, hnone _ hout⟩, hclosed, (distances_exact g _).2.1 hclosed⟩

end Route

end Labyrinth

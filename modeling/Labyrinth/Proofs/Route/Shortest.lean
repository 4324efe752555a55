import Labyrinth.Proofs.Route.Layers
import Labyrinth.Route.Search

/-!
# The search finds shortest routes

As long as the two frontiers hold no cell in common, no walk between their roots is as short as
their distances together. So the first cell on which they meet lies on a shortest walk. If a
frontier has no layer left, it holds all that can be reached from its root.
-/

namespace Labyrinth

open Frontier

variable {g : Grid} {a b c : Cell} {near far : Frontier} {j k n : Nat}

theorem Frontier.Ball.mem_of_layer_eq_nil (h : Ball g a j near) (hnil : near.layer = [])
    (hr : g.Reaches a c n) : c ∈ near.parents := by
  obtain ⟨d, -, hd⟩ := hr.exists_isDist
  rcases Nat.le_total d j with hdj | hjd
  · exact (h.held c).mpr ⟨d, hdj, hd⟩
  · obtain ⟨e, rfl⟩ := Nat.exists_eq_add_of_le hjd
    obtain ⟨x, hx, -⟩ := hd.split
    have hmem := (h.layer x).mpr hx
    rw [hnil] at hmem
    cases hmem

namespace Route

/-- A walk as short as the two distances together would have a cell that both frontiers hold. -/
theorem lt_of_disjoint (hnear : Ball g a j near) (hfar : Ball g b k far)
    (hdisjoint : ∀ c ∈ near.parents, c ∉ far.parents) (h : g.Reaches a b n) : j + k < n := by
  by_contra hle
  have hsum : min j n + (n - min j n) = n := by omega
  rw [← hsum] at h
  obtain ⟨x, hax, hxb⟩ := h.split
  obtain ⟨d, hd, hxd⟩ := hax.exists_isDist
  obtain ⟨e, he, hxe⟩ := hxb.symm.exists_isDist
  exact hdisjoint x ((hnear.held x).mpr ⟨d, by omega, hxd⟩) ((hfar.held x).mpr ⟨e, by omega, hxe⟩)

/-- The ways back of two frontiers join to a shortest walk if no walk has fewer steps than both of
them. -/
theorem shortest_join {p q : Nat} (hnear : Rooted g a near.parents) (hfar : Rooted g b far.parents)
    (hcnear : c ∈ near.parents) (hcfar : c ∈ far.parents) (hp : g.IsDist a c p)
    (hq : g.IsDist b c q) (hmin : ∀ n, g.Reaches a b n → p + q ≤ n) :
    g.Shortest a b (join near far c) := by
  obtain ⟨hback, hlen⟩ := hnear.walk_wayBack hcnear hp
  obtain ⟨hforth, hlen'⟩ := hfar.walk_wayBack hcfar hq
  have hlength := hforth.length_append_tail (u := (near.wayBack c).reverse)
  rw [List.length_reverse] at hlength
  have hdist : g.IsDist a b (p + q) := ⟨hp.1.trans hq.1.symm, hmin⟩
  exact hdist.shortest (hback.reverse.append hforth) (by rw [join]; omega)

theorem not_reaches_of_layer_eq_nil (hnear : Ball g a j near) (hfar : Ball g b k far)
    (hdisjoint : ∀ c ∈ near.parents, c ∉ far.parents) (hnil : near.layer = []) :
    ¬ g.Reaches a b n := by
  intro hr
  have hb : b ∈ far.parents := (hfar.held b).mpr ⟨0, Nat.zero_le _, .self hr.isOpen_right⟩
  exact hdisjoint b (hnear.mem_of_layer_eq_nil hnil hr) hb

theorem meeting_spec {meeting : Cell} (hnear : Ball g a j near) (hfar : Ball g b k far)
    (hdisjoint : ∀ c ∈ near.parents, c ∉ far.parents)
    (hmeet : (near.grow g far.holds).2 = some meeting) :
    Rooted g a (near.grow g far.holds).1.parents ∧
      meeting ∈ (near.grow g far.holds).1.parents ∧ meeting ∈ far.parents ∧
      ∃ p q, g.IsDist a meeting p ∧ g.IsDist b meeting q ∧ ∀ n, g.Reaches a b n → p + q ≤ n := by
  obtain ⟨hrooted, hmem, hp, hsought⟩ := hnear.grow_some hmeet
  have hmemfar : meeting ∈ far.parents := Std.HashMap.mem_iff_contains.mpr hsought
  obtain ⟨q, hqk, hq⟩ := (hfar.held meeting).mp hmemfar
  refine ⟨hrooted, hmem, hmemfar, j + 1, q, hp, hq, fun n hr => ?_⟩
  have := lt_of_disjoint hnear hfar hdisjoint hr
  omega

def Answers (g : Grid) (a b : Cell) (w : List Cell) : Prop :=
  g.Shortest a b w ∨ w = [] ∧ ∀ n, ¬ g.Reaches a b n

theorem search_answers (ahead : Bool) (hnear : Ball g a j near) (hfar : Ball g b k far)
    (hdisjoint : ∀ c ∈ near.parents, c ∉ far.parents) :
    Answers g (bif ahead then a else b) (bif ahead then b else a) (search g ahead near far) := by
  fun_induction search g ahead near far generalizing a b j k with
  | case1 ahead near far hnil =>
    have hnone : ∀ n, ¬ g.Reaches a b n := by
      intro n hr
      rcases hnil with hnil | hnil
      · exact not_reaches_of_layer_eq_nil hnear hfar hdisjoint hnil hr
      · have hdisjoint' : ∀ c ∈ far.parents, c ∉ near.parents := fun c hc hc' =>
          hdisjoint c hc' hc
        exact not_reaches_of_layer_eq_nil hfar hnear hdisjoint' hnil hr.symm
    right
    cases ahead with
    | true => exact ⟨rfl, hnone⟩
    | false => exact ⟨rfl, fun n hr => hnone n hr.symm⟩
  | case2 near far _ _ r meeting =>
    rename_i hmeet
    obtain ⟨hrooted, hmem, hmemfar, p, q, hp, hq, hmin⟩ :=
      meeting_spec hnear hfar hdisjoint hmeet
    exact .inl (shortest_join hrooted hfar.rooted hmem hmemfar hp hq hmin)
  | case3 ahead near far _ _ r meeting hmeet =>
    rename_i hahead
    obtain ⟨hrooted, hmem, hmemfar, p, q, hp, hq, hmin⟩ :=
      meeting_spec hnear hfar hdisjoint hmeet
    rw [Bool.not_eq_true] at hahead
    rw [hahead]
    refine .inl (shortest_join hfar.rooted hrooted hmemfar hmem hq hp fun n hr => ?_)
    rw [Nat.add_comm]
    exact hmin n hr.symm
  | case4 ahead near far _ _ r hmeet =>
    rename_i ih
    obtain ⟨hgrown, hnew⟩ := hnear.grow_none hmeet
    have hanswers := ih hfar hgrown fun c hc hc' => by
      rcases hnew c hc' with hold | hsought
      · exact hdisjoint c hold hc
      · exact hsought (Std.HashMap.mem_iff_contains.mp hc)
    cases ahead with
    | true => exact hanswers
    | false => exact hanswers

theorem shortest_answers (g : Grid) (start finish : Cell) :
    Answers g start finish (shortest g start finish) := by
  unfold shortest
  split
  · rename_i hclosed
    refine .inr ⟨rfl, fun n hr => ?_⟩
    simp [hr.isOpen_left, hr.isOpen_right] at hclosed
  · rename_i hopen
    obtain ⟨hs, hf⟩ : g.isOpen start ∧ g.isOpen finish := by simpa using hopen
    split
    · subst finish
      exact .inl ((Grid.IsDist.self hs).shortest (.single hs) rfl)
    · rename_i hne
      refine search_answers true (ball_ofRoot hs) (ball_ofRoot hf) fun c hc hc' => ?_
      obtain ⟨d, hd, hcd⟩ := ((ball_ofRoot hs).held c).mp hc
      obtain ⟨e, he, hce⟩ := ((ball_ofRoot hf).held c).mp hc'
      obtain rfl : d = 0 := by omega
      obtain rfl : e = 0 := by omega
      exact hne ((Grid.IsDist.zero_iff.mp hcd).1.trans (Grid.IsDist.zero_iff.mp hce).1.symm)

theorem shortest_of_ne_nil {start finish : Cell} (h : shortest g start finish ≠ []) :
    g.Shortest start finish (shortest g start finish) := by
  rcases shortest_answers g start finish with hs | ⟨hnil, -⟩
  · exact hs
  · exact absurd hnil h

theorem shortest_ne_nil_iff {start finish : Cell} :
    shortest g start finish ≠ [] ↔ ∃ w, g.Walk start finish w := by
  constructor
  · intro h
    exact ⟨_, (shortest_of_ne_nil h).1⟩
  · rintro ⟨w, hw⟩
    rcases shortest_answers g start finish with hs | ⟨-, hnone⟩
    · exact hs.1.ne_nil
    · have hpos := List.length_pos_iff.mpr hw.ne_nil
      exact absurd ⟨w, hw, by omega⟩ (hnone (w.length - 1))

/-- The search gives the empty list exactly if there is no walk between its ends. Any other answer
is a walk without repeats, and no walk between the ends has fewer steps. -/
theorem shortest_optimal (g : Grid) (start finish : Cell) :
    (shortest g start finish = [] ↔
      ¬ g.isOpen start ∨ ¬ g.isOpen finish ∨ ¬ ∃ w, g.Walk start finish w) ∧
      (shortest g start finish ≠ [] →
        (shortest g start finish).head? = some start ∧
        (shortest g start finish).getLast? = some finish ∧
        (∀ c ∈ shortest g start finish, g.isOpen c) ∧
        (shortest g start finish).IsChain Cell.Adjacent ∧
        (shortest g start finish).Nodup ∧
        ∀ w, g.Walk start finish w → (shortest g start finish).length - 1 ≤ w.length - 1) := by
  constructor
  · rw [← not_iff_not, ← ne_eq, shortest_ne_nil_iff]
    simp only [not_or, not_not]
    constructor
    · rintro ⟨w, hw⟩
      exact ⟨hw.floor _ hw.first_mem, hw.floor _ hw.last_mem, w, hw⟩
    · exact fun h => h.2.2
  · intro h
    have hs := shortest_of_ne_nil h
    refine ⟨hs.1.first, hs.1.last, hs.1.floor, hs.1.linked, hs.nodup, fun w hw => ?_⟩
    exact Nat.sub_le_sub_right (hs.2 w hw) 1

/-- Around a wall in the middle there are two shortest routes between opposite corners. -/
theorem shortest_optimal_around_wall :
    shortest ⟨3, #[.floor, .floor, .floor, .floor, .wall, .floor, .floor, .floor, .floor]⟩
        ⟨0, 0⟩ ⟨2, 2⟩ ≠ [] ∧
      (shortest ⟨3, #[.floor, .floor, .floor, .floor, .wall, .floor, .floor, .floor, .floor]⟩
        ⟨0, 0⟩ ⟨2, 2⟩).length - 1 ≤ 4 := by
  have hwalk : Grid.Walk
      ⟨3, #[.floor, .floor, .floor, .floor, .wall, .floor, .floor, .floor, .floor]⟩ ⟨0, 0⟩ ⟨2, 2⟩
      [⟨0, 0⟩, ⟨1, 0⟩, ⟨2, 0⟩, ⟨2, 1⟩, ⟨2, 2⟩] :=
    ⟨rfl, rfl, by decide, by decide⟩
  have hne := shortest_ne_nil_iff.mpr ⟨_, hwalk⟩
  exact ⟨hne, ((shortest_optimal _ _ _).2 hne).2.2.2.2.2 _ hwalk⟩

end Route

end Labyrinth

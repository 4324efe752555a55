import Labyrinth.Proofs.Grid.Walk
import Labyrinth.Route.Frontier

/-!
# Layers of equal distance

A frontier that has grown `j` times without meeting what was sought holds the cells within distance
`j` of its root, and its outermost layer is the cells at distance `j`. The way back from a cell that
it holds is a shortest walk to the root.
-/

namespace Labyrinth.Frontier

variable {g : Grid} {root here : Cell} {parents : Std.HashMap Cell (Option Cell)} {j : Nat}

/-! ## Found from one step closer -/

/-- Every cell held but the root was found from an adjacent one that is a step closer to it. -/
structure Rooted (g : Grid) (root : Cell) (parents : Std.HashMap Cell (Option Cell)) : Prop where
  dist : ∀ c ∈ parents, ∃ d, g.IsDist root c d
  eq_root : ∀ c, parents[c]? = some none → c = root
  parent : ∀ c p, parents[c]? = some (some p) →
    p ∈ parents ∧ p.Adjacent c ∧ ∃ d, g.IsDist root p d ∧ g.IsDist root c (d + 1)

namespace Rooted

theorem insert (h : Rooted g root parents) {p n : Cell} {d : Nat} (hp : p ∈ parents)
    (hpn : p.Adjacent n) (hpd : g.IsDist root p d) (hnd : g.IsDist root n (d + 1)) :
    Rooted g root (parents.insert n (some p)) := by
  refine ⟨fun c hc => ?_, fun c hc => ?_, fun c q hc => ?_⟩
  · rcases Std.HashMap.mem_insert.mp hc with hc | hc
    · obtain rfl : n = c := beq_iff_eq.mp hc
      exact ⟨_, hnd⟩
    · exact h.dist c hc
  · rw [Std.HashMap.getElem?_insert] at hc
    split at hc
    · cases hc
    · exact h.eq_root c hc
  · rw [Std.HashMap.getElem?_insert] at hc
    split at hc
    · rename_i heq
      obtain rfl : n = c := by simpa using heq
      obtain rfl : p = q := by simpa using hc
      exact ⟨Std.HashMap.mem_insert.mpr (.inr hp), hpn, d, hpd, hnd⟩
    · obtain ⟨hq, hqc, hd⟩ := h.parent c q hc
      exact ⟨Std.HashMap.mem_insert.mpr (.inr hq), hqc, hd⟩

theorem eq_root_or_parent (h : Rooted g root parents) {c : Cell} {d : Nat} (hc : c ∈ parents)
    (hd : g.IsDist root c d) :
    d = 0 ∧ c = root ∧ parents[c]? = some none ∨
      ∃ p e, d = e + 1 ∧ parents[c]? = some (some p) ∧ p ∈ parents ∧ p.Adjacent c ∧
        g.IsDist root p e := by
  obtain ⟨parent, hparent⟩ : ∃ x, parents[c]? = some x := by
    rw [← Option.isSome_iff_exists, Std.HashMap.isSome_getElem?_eq_contains]
    exact hc
  cases parent with
  | none =>
    obtain rfl := h.eq_root c hparent
    exact .inl ⟨hd.unique (.self hd.1.isOpen_left), rfl, hparent⟩
  | some p =>
    obtain ⟨hp, hpc, e, hpe, hce⟩ := h.parent c p hparent
    exact .inr ⟨p, e, hd.unique hce, hparent, hp, hpc, hpe⟩

theorem exists_nodup (h : Rooted g root parents) {c : Cell} {d : Nat} (hc : c ∈ parents)
    (hd : g.IsDist root c d) :
    ∃ l : List Cell, l.Nodup ∧ l.length = d + 1 ∧
      ∀ b ∈ l, b ∈ parents ∧ ∃ e ≤ d, g.IsDist root b e := by
  induction d generalizing c with
  | zero => exact ⟨[c], List.nodup_singleton c, rfl, by simpa using ⟨hc, hd⟩⟩
  | succ d ih =>
    rcases h.eq_root_or_parent hc hd with ⟨h0, -⟩ | ⟨p, e, he, -, hp, -, hpe⟩
    · cases h0
    · obtain rfl : d = e := by omega
      obtain ⟨l, hl, hlen, hmem⟩ := ih hp hpe
      refine ⟨c :: l, List.nodup_cons.mpr ⟨fun hcl => ?_, hl⟩, by rw [List.length_cons, hlen], ?_⟩
      · obtain ⟨-, e, he, hce⟩ := hmem c hcl
        have := hd.unique hce
        omega
      · intro b hb
        rcases List.mem_cons.mp hb with rfl | hb
        · exact ⟨hc, d + 1, Nat.le_refl _, hd⟩
        · obtain ⟨hbp, e, he, hbe⟩ := hmem b hb
          exact ⟨hbp, e, by omega, hbe⟩

theorem lt_size (h : Rooted g root parents) {c : Cell} {d : Nat} (hc : c ∈ parents)
    (hd : g.IsDist root c d) : d < parents.size := by
  obtain ⟨l, hl, hlen, hmem⟩ := h.exists_nodup hc hd
  have hle := hl.length_le_of_subset fun b hb => Std.HashMap.mem_keys.mpr (hmem b hb).1
  rw [Std.HashMap.length_keys] at hle
  omega

theorem walk_walkBack {f : Frontier} (h : Rooted g root f.parents) {c : Cell} {d fuel : Nat}
    (hc : c ∈ f.parents) (hd : g.IsDist root c d) (hfuel : d ≤ fuel) :
    g.Walk c root (f.walkBack fuel c) ∧ (f.walkBack fuel c).length = d + 1 := by
  induction fuel generalizing c d with
  | zero =>
    obtain rfl : d = 0 := by omega
    obtain ⟨rfl, ho⟩ := Grid.IsDist.zero_iff.mp hd
    exact ⟨.single ho, rfl⟩
  | succ fuel ih =>
    have ho := hd.1.isOpen_right
    rcases h.eq_root_or_parent hc hd with ⟨rfl, rfl, hnone⟩ | ⟨p, e, rfl, hsome, hp, hpc, hpe⟩
    · rw [walkBack, hnone]
      exact ⟨.single ho, rfl⟩
    · obtain ⟨hwalk, hlen⟩ := ih hp hpe (by omega)
      rw [walkBack, hsome]
      exact ⟨.cons ho hpc.symm hwalk, by rw [List.length_cons, hlen]⟩

theorem walk_wayBack {f : Frontier} (h : Rooted g root f.parents) {c : Cell} {d : Nat}
    (hc : c ∈ f.parents) (hd : g.IsDist root c d) :
    g.Walk c root (f.wayBack c) ∧ (f.wayBack c).length = d + 1 :=
  h.walk_walkBack hc hd (Nat.le_of_lt (h.lt_size hc hd))

end Rooted

/-! ## Growing by one layer -/

/-- The frontier holds the cells within distance `j` of its root, and its layer is those at
distance `j`. -/
structure Ball (g : Grid) (root : Cell) (j : Nat) (f : Frontier) : Prop where
  rooted : Rooted g root f.parents
  held : ∀ c, c ∈ f.parents ↔ ∃ d ≤ j, g.IsDist root c d
  layer : ∀ c, c ∈ f.layer ↔ g.IsDist root c j
  nodup : f.layer.Nodup

theorem ball_ofRoot (h : g.isOpen root) : Ball g root 0 (ofRoot root) := by
  have hself : g.IsDist root root 0 := .self h
  have hget : ∀ c, (ofRoot root).parents[c]? = if root = c then some none else none := by
    intro c
    simp [ofRoot, Std.HashMap.getElem?_insert]
  have hmem : ∀ c, c ∈ (ofRoot root).parents ↔ c = root := by
    intro c
    rw [ofRoot, Std.HashMap.mem_insert, beq_iff_eq]
    simp only [Std.HashMap.not_mem_empty, or_false]
    exact eq_comm
  refine ⟨⟨fun c hc => ?_, fun c hc => ?_, fun c p hc => ?_⟩, fun c => ?_, fun c => ?_, ?_⟩
  · obtain rfl := (hmem c).mp hc
    exact ⟨0, hself⟩
  · rw [hget] at hc
    split at hc
    · symm; assumption
    · cases hc
  · rw [hget] at hc
    split at hc <;> cases hc
  · rw [hmem]
    constructor
    · rintro rfl
      exact ⟨0, Nat.le_refl _, hself⟩
    · rintro ⟨d, hd, hdist⟩
      obtain rfl : d = 0 := by omega
      exact (Grid.IsDist.zero_iff.mp hdist).1.symm
  · rw [Grid.IsDist.zero_iff, ofRoot, List.mem_singleton]
    exact ⟨fun hc => ⟨hc.symm, h⟩, fun hc => hc.1.symm⟩
  · exact List.nodup_singleton root

variable {sought : Cell → Bool} {gr : Growth}

/-- A frontier that grows beyond distance `j`. What it finds is at distance `j + 1`, and the search
of the layer ends with the first cell that is sought. -/
structure Growing (g : Grid) (root : Cell) (j : Nat) (sought : Cell → Bool) (gr : Growth) :
    Prop where
  rooted : Rooted g root gr.parents
  inner : ∀ c, (∃ d ≤ j, g.IsDist root c d) → c ∈ gr.parents
  outer : ∀ c ∈ gr.parents,
    (∃ d ≤ j, g.IsDist root c d) ∨ c ∈ gr.found ∨ gr.meeting = some c
  found : ∀ c ∈ gr.found, c ∈ gr.parents ∧ g.IsDist root c (j + 1) ∧ ¬ sought c
  met : ∀ c, gr.meeting = some c → c ∈ gr.parents ∧ g.IsDist root c (j + 1) ∧ sought c
  nodup : gr.found.Nodup

namespace Growing

theorem takeUp {n : Cell} (h : Growing g root j sought gr) (hnone : gr.meeting = none)
    (hhere : g.IsDist root here j) (hn : here.Adjacent n) (ho : g.isOpen n)
    (hnew : n ∉ gr.parents) :
    Growing g root j sought
      (if sought n then { gr with parents := gr.parents.insert n (some here), meeting := some n }
      else { gr with parents := gr.parents.insert n (some here), found := n :: gr.found }) := by
  have hdist : g.IsDist root n (j + 1) :=
    hhere.succ hn ho fun m hm hd => hnew (h.inner n ⟨m, hm, hd⟩)
  have hrooted := h.rooted.insert (h.inner here ⟨j, Nat.le_refl _, hhere⟩) hn hhere hdist
  have hself : n ∈ gr.parents.insert n (some here) := Std.HashMap.mem_insert_self
  have hold : ∀ c ∈ gr.parents, c ∈ gr.parents.insert n (some here) := fun c hc =>
    Std.HashMap.mem_insert.mpr (.inr hc)
  have hcases : ∀ c ∈ gr.parents.insert n (some here), c = n ∨ c ∈ gr.parents := by
    intro c hc
    rcases Std.HashMap.mem_insert.mp hc with hc | hc
    · exact .inl (beq_iff_eq.mp hc).symm
    · exact .inr hc
  have houter : ∀ c ∈ gr.parents, (∃ d ≤ j, g.IsDist root c d) ∨ c ∈ gr.found := by
    intro c hc
    rcases h.outer c hc with hd | hf | hm
    · exact .inl hd
    · exact .inr hf
    · rw [hnone] at hm
      cases hm
  have hfound : ∀ c ∈ gr.found, c ∈ gr.parents.insert n (some here) ∧
      g.IsDist root c (j + 1) ∧ ¬ sought c := fun c hc =>
    ⟨hold c (h.found c hc).1, (h.found c hc).2⟩
  split
  · refine ⟨hrooted, fun c hd => hold c (h.inner c hd), fun c hc => ?_, hfound, ?_, h.nodup⟩
    · rcases hcases c hc with rfl | hc
      · exact .inr (.inr rfl)
      · exact (houter c hc).imp_right .inl
    · intro c hc
      obtain rfl : n = c := Option.some.inj hc
      exact ⟨hself, hdist, ‹_›⟩
  · refine ⟨hrooted, fun c hd => hold c (h.inner c hd), fun c hc => ?_, fun c hc => ?_, ?_, ?_⟩
    · rcases hcases c hc with rfl | hc
      · exact .inr (.inl List.mem_cons_self)
      · exact (houter c hc).imp_right fun hf => .inl (List.mem_cons_of_mem _ hf)
    · rcases List.mem_cons.mp hc with rfl | hc
      · exact ⟨hself, hdist, ‹_›⟩
      · exact hfound c hc
    · intro c hc
      rw [hnone] at hc
      cases hc
    · exact List.nodup_cons.mpr ⟨fun hf => hnew (h.found n hf).1, h.nodup⟩

theorem visit {ns : List Cell} (h : Growing g root j sought gr) (hnone : gr.meeting = none)
    (hhere : g.IsDist root here j) (hns : ∀ n ∈ ns, here.Adjacent n ∧ g.isOpen n) :
    Growing g root j sought (gr.visit sought here ns) ∧
      (∀ c ∈ gr.parents, c ∈ (gr.visit sought here ns).parents) ∧
      ((gr.visit sought here ns).meeting = none →
        ∀ n ∈ ns, n ∈ (gr.visit sought here ns).parents) := by
  induction ns generalizing gr with
  | nil => exact ⟨h, fun _ hc => hc, fun _ n hn => absurd hn List.not_mem_nil⟩
  | cons n ns ih =>
    have hlater : ∀ m ∈ ns, here.Adjacent m ∧ g.isOpen m := fun m hm =>
      hns m (List.mem_cons_of_mem _ hm)
    rw [Growth.visit]
    split
    · rename_i hheld
      obtain ⟨hgrow, hkeep, hall⟩ := ih h hnone hlater
      refine ⟨hgrow, hkeep, fun hm c hc => ?_⟩
      rcases List.mem_cons.mp hc with rfl | hc
      · exact hkeep c (Std.HashMap.mem_iff_contains.mpr hheld)
      · exact hall hm c hc
    · rename_i hnew
      obtain ⟨hn, ho⟩ := hns n List.mem_cons_self
      have htake := h.takeUp hnone hhere hn ho fun hmem =>
        hnew (Std.HashMap.mem_iff_contains.mp hmem)
      dsimp only
      split at htake
      · rw [if_pos ‹_›]
        exact ⟨htake, fun c hc => Std.HashMap.mem_insert.mpr (.inr hc), fun hm => by cases hm⟩
      · rw [if_neg ‹_›]
        obtain ⟨hgrow, hkeep, hall⟩ := ih htake hnone hlater
        refine ⟨hgrow, fun c hc => hkeep c (Std.HashMap.mem_insert.mpr (.inr hc)), ?_⟩
        intro hm c hc
        rcases List.mem_cons.mp hc with rfl | hc
        · exact hkeep c Std.HashMap.mem_insert_self
        · exact hall hm c hc

theorem visitAll {cs : List Cell} (h : Growing g root j sought gr) (hnone : gr.meeting = none)
    (hcs : ∀ c ∈ cs, g.IsDist root c j) :
    Growing g root j sought (gr.visitAll g sought cs) ∧
      (∀ c ∈ gr.parents, c ∈ (gr.visitAll g sought cs).parents) ∧
      ((gr.visitAll g sought cs).meeting = none →
        ∀ c ∈ cs, ∀ n ∈ g.openNeighbors c, n ∈ (gr.visitAll g sought cs).parents) := by
  induction cs generalizing gr with
  | nil => exact ⟨h, fun _ hc => hc, fun _ c hc => absurd hc List.not_mem_nil⟩
  | cons here cs ih =>
    have hns : ∀ n ∈ g.openNeighbors here, here.Adjacent n ∧ g.isOpen n := fun n hn =>
      Grid.mem_openNeighbors.mp hn
    obtain ⟨hgrow, hkeep, hall⟩ := h.visit hnone (hcs here List.mem_cons_self) hns
    rw [Growth.visitAll]
    split
    · rename_i m hm
      exact ⟨hgrow, hkeep, fun hnot => by rw [hm] at hnot; cases hnot⟩
    · rename_i hm
      obtain ⟨hgrow', hkeep', hall'⟩ := ih hgrow hm fun c hc => hcs c (List.mem_cons_of_mem _ hc)
      refine ⟨hgrow', fun c hc => hkeep' c (hkeep c hc), fun hnot c hc n hn => ?_⟩
      rcases List.mem_cons.mp hc with rfl | hc
      · exact hkeep' n (hall hm n hn)
      · exact hall' hnot c hc n hn

end Growing

namespace Ball

variable {f : Frontier}

theorem growing (h : Ball g root j f) (sought : Cell → Bool) :
    Growing g root j sought ⟨f.parents, [], none⟩ where
  rooted := h.rooted
  inner c hc := (h.held c).mpr hc
  outer c hc := .inl ((h.held c).mp hc)
  found c hc := absurd hc List.not_mem_nil
  met c hc := by cases hc
  nodup := List.nodup_nil

theorem grow_none (h : Ball g root j f) (hnone : (f.grow g sought).2 = none) :
    Ball g root (j + 1) (f.grow g sought).1 ∧
      ∀ c ∈ (f.grow g sought).1.parents, c ∈ f.parents ∨ ¬ sought c := by
  obtain ⟨hgrow, hkeep, hall⟩ := (h.growing sought).visitAll rfl fun c hc => (h.layer c).mp hc
  have hall := hall hnone
  have houter : ∀ c ∈ (f.grow g sought).1.parents, (∃ d ≤ j, g.IsDist root c d) ∨
      c ∈ (f.grow g sought).1.layer := by
    intro c hc
    rcases hgrow.outer c hc with hd | hf | hm
    · exact .inl hd
    · exact .inr (List.mem_reverse.mpr hf)
    · exact absurd (hnone.symm.trans hm) (by simp)
  have hlayer : ∀ c, c ∈ (f.grow g sought).1.layer ↔ g.IsDist root c (j + 1) := by
    intro c
    constructor
    · intro hc
      exact (hgrow.found c (List.mem_reverse.mp hc)).2.1
    · intro hd
      obtain ⟨b, hb, hbc⟩ := hd.split
      have hmem : c ∈ g.openNeighbors b :=
        Grid.mem_openNeighbors.mpr ⟨hbc.adjacent_of_one, hbc.isOpen_right⟩
      rcases houter c (hall b ((h.layer b).mpr hb) c hmem) with ⟨d, hle, hd'⟩ | hc
      · have := hd.unique hd'
        omega
      · exact hc
  refine ⟨⟨hgrow.rooted, fun c => ?_, hlayer, List.nodup_reverse.mpr hgrow.nodup⟩, ?_⟩
  · constructor
    · intro hc
      rcases houter c hc with ⟨d, hle, hd⟩ | hc
      · exact ⟨d, by omega, hd⟩
      · exact ⟨j + 1, Nat.le_refl _, (hlayer c).mp hc⟩
    · rintro ⟨d, hle, hd⟩
      rcases Nat.lt_or_ge j d with hj | hj
      · obtain rfl : d = j + 1 := by omega
        exact (hgrow.found c (List.mem_reverse.mp ((hlayer c).mpr hd))).1
      · exact hgrow.inner c ⟨d, hj, hd⟩
  · intro c hc
    rcases houter c hc with hd | hf
    · exact .inl ((h.held c).mpr hd)
    · exact .inr (hgrow.found c (List.mem_reverse.mp hf)).2.2

theorem grow_some {c : Cell} (h : Ball g root j f) (hsome : (f.grow g sought).2 = some c) :
    Rooted g root (f.grow g sought).1.parents ∧ c ∈ (f.grow g sought).1.parents ∧
      g.IsDist root c (j + 1) ∧ sought c := by
  obtain ⟨hgrow, -, -⟩ := (h.growing sought).visitAll rfl fun c hc => (h.layer c).mp hc
  exact ⟨hgrow.rooted, hgrow.met c hsome⟩

end Ball

end Labyrinth.Frontier

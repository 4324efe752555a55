import Labyrinth.Grid.Basic
import Mathlib.Data.List.Chain
import Mathlib.Data.List.Nodup
import Mathlib.Data.Nat.Find

/-!
# Walks

A walk goes over open cells from one to an adjacent one. The distance of two cells is the number of
steps of a shortest walk between them.
-/

namespace Labyrinth.Grid

variable {g : Grid} {a b c : Cell} {u v w : List Cell} {m n : Nat}

/-- The list is a walk over open cells from `a` to `b`. -/
structure Walk (g : Grid) (a b : Cell) (w : List Cell) : Prop where
  first : w.head? = some a
  last : w.getLast? = some b
  floor : ∀ c ∈ w, g.isOpen c
  linked : w.IsChain Cell.Adjacent

namespace Walk

theorem ne_nil (h : g.Walk a b w) : w ≠ [] := by
  rintro rfl
  cases h.first

theorem first_mem (h : g.Walk a b w) : a ∈ w := List.mem_of_head? h.first

theorem last_mem (h : g.Walk a b w) : b ∈ w := List.mem_of_getLast? h.last

theorem single (h : g.isOpen a) : g.Walk a a [a] where
  first := rfl
  last := rfl
  floor := by simpa using h
  linked := List.isChain_singleton a

theorem reverse (h : g.Walk a b w) : g.Walk b a w.reverse where
  first := by rw [List.head?_reverse, h.last]
  last := by rw [List.getLast?_reverse, h.first]
  floor c hc := h.floor c (List.mem_reverse.mp hc)
  linked := by
    rw [List.isChain_reverse]
    exact h.linked.imp fun _ _ hab => hab.symm

theorem append_cons_iff :
    g.Walk a c (u ++ b :: v) ↔ g.Walk a b (u ++ [b]) ∧ g.Walk b c (b :: v) := by
  have hhead : (u ++ b :: v).head? = (u ++ [b]).head? := by cases u <;> rfl
  have hlast : (u ++ b :: v).getLast? = (b :: v).getLast? := by
    rw [List.getLast?_append_cons]
  constructor
  · intro h
    obtain ⟨hu, hv⟩ := List.isChain_split.mp h.linked
    refine ⟨⟨hhead ▸ h.first, by simp, fun d hd => h.floor d ?_, hu⟩,
      ⟨rfl, hlast ▸ h.last, fun d hd => h.floor d (List.mem_append_right _ hd), hv⟩⟩
    rw [List.mem_append, List.mem_singleton] at hd
    rcases hd with hd | rfl
    · exact List.mem_append_left _ hd
    · exact List.mem_append_right _ List.mem_cons_self
  · rintro ⟨hu, hv⟩
    refine ⟨hhead ▸ hu.first, hlast ▸ hv.last, fun d hd => ?_,
      List.isChain_split.mpr ⟨hu.linked, hv.linked⟩⟩
    rcases List.mem_append.mp hd with hd | hd
    · exact hu.floor d (List.mem_append_left _ hd)
    · exact hv.floor d hd

theorem cons_cons_iff {x y : Cell} :
    g.Walk a c (x :: y :: w) ↔ x = a ∧ g.isOpen a ∧ a.Adjacent y ∧ g.Walk y c (y :: w) := by
  constructor
  · intro h
    obtain rfl : x = a := by simpa using h.first
    refine ⟨rfl, h.floor x List.mem_cons_self, (List.isChain_cons_cons.mp h.linked).1, ?_⟩
    exact (append_cons_iff (u := [x]).mp h).2
  · rintro ⟨rfl, hx, hxy, hy⟩
    refine ⟨rfl, by simpa using hy.last, fun d hd => ?_, hy.linked.cons_cons hxy⟩
    rcases List.mem_cons.mp hd with rfl | hd
    · exact hx
    · exact hy.floor d hd

theorem exists_cons (h : g.Walk a b w) : ∃ v, w = a :: v := by
  cases w with
  | nil => exact absurd rfl h.ne_nil
  | cons x v => exact ⟨v, by rw [Option.some.inj h.first]⟩

theorem cons (ha : g.isOpen a) (hab : a.Adjacent b) (h : g.Walk b c w) : g.Walk a c (a :: w) := by
  obtain ⟨v, rfl⟩ := h.exists_cons
  exact cons_cons_iff.mpr ⟨rfl, ha, hab, h⟩

theorem append (hu : g.Walk a b u) (hv : g.Walk b c v) : g.Walk a c (u ++ v.tail) := by
  obtain ⟨v, rfl⟩ := hv.exists_cons
  obtain ⟨u, rfl⟩ : ∃ u', u = u' ++ [b] := by
    obtain ⟨u, hu'⟩ := hu.reverse.exists_cons
    exact ⟨u.reverse, by simpa using congrArg List.reverse hu'⟩
  have := append_cons_iff.mpr ⟨hu, hv⟩
  simpa using this

theorem length_append_tail (hv : g.Walk b c v) :
    (u ++ v.tail).length + 1 = u.length + v.length := by
  have := List.length_pos_iff.mpr hv.ne_nil
  rw [List.length_append, List.length_tail]
  omega

end Walk

/-! ## Numbers of steps -/

/-- Some walk of `n` steps leads from `a` to `b`. -/
def Reaches (g : Grid) (a b : Cell) (n : Nat) : Prop := ∃ w, g.Walk a b w ∧ w.length = n + 1

namespace Reaches

theorem symm (h : g.Reaches a b n) : g.Reaches b a n := by
  obtain ⟨w, hw, hn⟩ := h
  exact ⟨w.reverse, hw.reverse, by rw [List.length_reverse, hn]⟩

theorem trans (h : g.Reaches a b m) (h' : g.Reaches b c n) : g.Reaches a c (m + n) := by
  obtain ⟨u, hu, hm⟩ := h
  obtain ⟨v, hv, hn⟩ := h'
  refine ⟨_, hu.append hv, ?_⟩
  have := Walk.length_append_tail (u := u) hv
  omega

theorem isOpen_left (h : g.Reaches a b n) : g.isOpen a := by
  obtain ⟨w, hw, -⟩ := h
  exact hw.floor a hw.first_mem

theorem isOpen_right (h : g.Reaches a b n) : g.isOpen b := h.symm.isOpen_left

theorem zero_iff : g.Reaches a b 0 ↔ a = b ∧ g.isOpen a := by
  constructor
  · rintro ⟨w, hw, hlen⟩
    obtain ⟨c, rfl⟩ := List.length_eq_one_iff.mp hlen
    obtain rfl : c = a := by simpa using hw.first
    exact ⟨by simpa using hw.last, hw.floor c List.mem_cons_self⟩
  · rintro ⟨rfl, ha⟩
    exact ⟨[a], .single ha, rfl⟩

theorem one_of_adjacent (ha : g.isOpen a) (hab : a.Adjacent b) (hb : g.isOpen b) :
    g.Reaches a b 1 :=
  ⟨[a, b], Walk.cons_cons_iff.mpr ⟨rfl, ha, hab, .single hb⟩, rfl⟩

theorem split (h : g.Reaches a c (m + n)) : ∃ b, g.Reaches a b m ∧ g.Reaches b c n := by
  obtain ⟨w, hw, hlen⟩ := h
  have hm : m < w.length := by omega
  rw [← List.take_append_drop m w, List.drop_eq_getElem_cons hm] at hw
  obtain ⟨hu, hv⟩ := Walk.append_cons_iff.mp hw
  exact ⟨w[m], ⟨_, hu, by simp; omega⟩, ⟨_, hv, by simp; omega⟩⟩

theorem adjacent_of_one (h : g.Reaches a b 1) : a.Adjacent b := by
  obtain ⟨w, hw, hlen⟩ := h
  obtain ⟨x, y, rfl⟩ := List.length_eq_two.mp hlen
  obtain ⟨-, -, hxy, hy⟩ := Walk.cons_cons_iff.mp hw
  obtain rfl : y = b := by simpa using hy.last
  exact hxy

end Reaches

/-! ## Distances -/

/-- The shortest walks from `a` to `b` have `n` steps. -/
def IsDist (g : Grid) (a b : Cell) (n : Nat) : Prop :=
  g.Reaches a b n ∧ ∀ m, g.Reaches a b m → n ≤ m

theorem Reaches.exists_isDist (h : g.Reaches a b n) : ∃ d ≤ n, g.IsDist a b d := by
  classical
  have hex : ∃ d, g.Reaches a b d := ⟨n, h⟩
  exact ⟨Nat.find hex, Nat.find_le h, Nat.find_spec hex, fun m hm => Nat.find_le hm⟩

namespace IsDist

theorem unique (h : g.IsDist a b m) (h' : g.IsDist a b n) : m = n :=
  Nat.le_antisymm (h.2 n h'.1) (h'.2 m h.1)

theorem zero_iff : g.IsDist a b 0 ↔ a = b ∧ g.isOpen a := by
  rw [IsDist, Reaches.zero_iff]
  exact and_iff_left_of_imp fun _ _ _ => Nat.zero_le _

theorem self (h : g.isOpen a) : g.IsDist a a 0 := zero_iff.mpr ⟨rfl, h⟩

theorem split (h : g.IsDist a c (m + n)) : ∃ b, g.IsDist a b m ∧ g.Reaches b c n := by
  obtain ⟨b, hab, hbc⟩ := h.1.split
  refine ⟨b, ⟨hab, fun k hk => ?_⟩, hbc⟩
  have := h.2 _ (hk.trans hbc)
  omega

theorem succ (h : g.IsDist a b n) (hbc : b.Adjacent c) (hc : g.isOpen c)
    (hfar : ∀ m ≤ n, ¬ g.IsDist a c m) : g.IsDist a c (n + 1) := by
  have hreach := h.1.trans (.one_of_adjacent h.1.isOpen_right hbc hc)
  refine ⟨hreach, fun m hm => ?_⟩
  by_contra hlt
  obtain ⟨d, hd, hdist⟩ := hm.exists_isDist
  exact hfar d (by omega) hdist

end IsDist

/-! ## Shortest walks -/

/-- The list is a walk from `a` to `b`, and no other one is shorter. -/
def Shortest (g : Grid) (a b : Cell) (w : List Cell) : Prop :=
  g.Walk a b w ∧ ∀ v, g.Walk a b v → w.length ≤ v.length

theorem Shortest.eq_pair (h : g.Shortest a b w) (hstep : g.Walk a b [a, b]) (hne : a ≠ b) :
    w = [a, b] := by
  have hlen := h.2 _ hstep
  have hfirst := h.1.first
  have hlast := h.1.last
  match w with
  | [] => cases hfirst
  | [c] =>
    cases hfirst
    cases hlast
    exact absurd rfl hne
  | [c, d] =>
    cases hfirst
    cases hlast
    rfl
  | _ :: _ :: _ :: w =>
    simp only [List.length_cons, List.length_nil] at hlen
    omega

theorem IsDist.shortest (h : g.IsDist a b n) (hw : g.Walk a b w) (hlen : w.length = n + 1) :
    g.Shortest a b w := by
  refine ⟨hw, fun v hv => ?_⟩
  have hpos := List.length_pos_iff.mpr hv.ne_nil
  have := h.2 (v.length - 1) ⟨v, hv, by omega⟩
  omega

/-- A cell that comes twice on a walk allows a shortcut. -/
theorem Shortest.nodup (h : g.Shortest a b w) : w.Nodup := by
  obtain ⟨hw, hmin⟩ := h
  refine List.pairwise_iff_getElem.mpr fun i j hi hj hij heq => ?_
  have hleft : g.Walk a w[i] (w.take i ++ [w[i]]) := by
    rw [← List.take_append_drop i w, List.drop_eq_getElem_cons hi] at hw
    exact (Walk.append_cons_iff.mp hw).1
  have hright : g.Walk w[j] b (w[j] :: w.drop (j + 1)) := by
    rw [← List.take_append_drop j w, List.drop_eq_getElem_cons hj] at hw
    exact (Walk.append_cons_iff.mp hw).2
  rw [← heq] at hright
  have hshort := hmin _ (Walk.append_cons_iff.mpr ⟨hleft, hright⟩)
  simp only [List.length_append, List.length_take, List.length_cons, List.length_drop] at hshort
  omega

end Labyrinth.Grid

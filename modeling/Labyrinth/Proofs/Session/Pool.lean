import Labyrinth.Proofs.Engine.Requests
import Mathlib.Data.Finset.Card
import Mathlib.Data.List.Basic

/-!
# Pools as ordered sets

The pool of a list holds each endpoint of the list once, in the order in which they come up first.
So its size is the number of different endpoints, and with this number the engine decides whether
there are enough of them for the roles of a scene.
-/

namespace Labyrinth.Pool

variable {p : Pool} {a e : Endpoint} {es fs : List Endpoint}

theorem add_of_mem (h : a ∈ p.endpoints) : p.add a = p := if_pos h

theorem endpoints_add_of_not_mem (h : a ∉ p.endpoints) :
    (p.add a).endpoints = p.endpoints ++ [a] := by
  simp [add, h]

theorem ofList_concat : ofList (es ++ [a]) = (ofList es).add a := by
  simp [ofList]

/-! ## One more endpoint -/

-- A pool is filled from the front, so every induction takes the last endpoint off the list.

theorem nodup_ofList (es : List Endpoint) : (ofList es).endpoints.Nodup := by
  induction es using List.reverseRecOn with
  | nil => exact List.nodup_nil
  | append_singleton es a ih =>
    rw [ofList_concat]
    exact nodup_add ih a

@[simp] theorem mem_ofList : e ∈ (ofList es).endpoints ↔ e ∈ es := by
  induction es using List.reverseRecOn with
  | nil => rfl
  | append_singleton es a ih => simp [ofList_concat, mem_add, ih]

theorem ofList_of_nodup (h : es.Nodup) : ofList es = ⟨es⟩ := by
  induction es using List.reverseRecOn with
  | nil => rfl
  | append_singleton es a ih =>
    obtain ⟨hes, -, hnew⟩ := List.nodup_append.mp h
    have ha : a ∉ es := fun hin => hnew a hin a (List.mem_singleton_self a) rfl
    simp [ofList_concat, ih hes, add, ha]

theorem pairwise_idxOf (es : List Endpoint) :
    (ofList es).endpoints.Pairwise fun a b => es.idxOf a < es.idxOf b := by
  induction es using List.reverseRecOn with
  | nil => exact List.Pairwise.nil
  | append_singleton es a ih =>
    have hold : (ofList es).endpoints.Pairwise fun x y =>
        (es ++ [a]).idxOf x < (es ++ [a]).idxOf y := by
      apply ih.imp_of_mem
      intro x y hx hy hxy
      rwa [List.idxOf_append_of_mem (mem_ofList.mp hx), List.idxOf_append_of_mem (mem_ofList.mp hy)]
    rw [ofList_concat]
    by_cases ha : a ∈ es
    · rw [add_of_mem (mem_ofList.mpr ha)]
      exact hold
    · rw [endpoints_add_of_not_mem (by simpa using ha), List.pairwise_append]
      refine ⟨hold, List.pairwise_singleton _ a, ?_⟩
      intro x hx y hy
      obtain rfl := List.mem_singleton.mp hy
      rw [List.idxOf_append_of_mem (mem_ofList.mp hx), List.idxOf_append_of_notMem ha]
      have hlt := List.idxOf_lt_length_of_mem (mem_ofList.mp hx)
      omega

theorem endpoints_ofList_append : (ofList (es ++ fs)).endpoints =
    (ofList es).endpoints ++ (ofList fs).endpoints.filter (· ∉ es) := by
  induction fs using List.reverseRecOn with
  | nil => simp [ofList]
  | append_singleton fs a ih =>
    rw [← List.append_assoc, ofList_concat, ofList_concat]
    by_cases hfs : a ∈ fs
    · rw [add_of_mem (by simp [hfs]), add_of_mem (by simp [hfs]), ih]
    · rw [endpoints_add_of_not_mem (p := ofList fs) (by simpa using hfs)]
      by_cases hes : a ∈ es
      · rw [add_of_mem (by simp [hes]), ih]
        simp [hes]
      · rw [endpoints_add_of_not_mem (by simp [hes, hfs]), ih]
        simp [hes]

/-! ## How many there are -/

theorem size_ofList (es : List Endpoint) : (ofList es).size = es.toFinset.card := by
  have hsame : (ofList es).endpoints.toFinset = es.toFinset := by
    ext e
    simp
  rw [size, ← List.toFinset_card_of_nodup (nodup_ofList es), hsame]

theorem join_eq_noFreeClient_iff {engine : Engine} {roles poolSize now : Nat} {r : Role}
    {id : SessionId} :
    (engine.join roles poolSize r id now).1 = .answered (.error .noFreeClient) ↔
      poolSize < roles := by
  constructor
  · intro h
    by_contra hpool
    have hjoins : Engine.Joins engine roles r id now _ _ :=
      Engine.joins_join (Nat.le_of_not_lt hpool)
    rw [h] at hjoins
    cases hjoins
  · intro hpool
    simp [Engine.join, hpool]

/-- The pool of a list is its endpoints without repeats, in the order in which they come up first.
The pool of a pool is the same pool, and the pool of two lists one after the other is that of the
first and what is new in that of the second. The engine has no free client exactly if there are
fewer different endpoints than roles. -/
theorem ofList_orderedSet (es : List Endpoint) :
    (ofList es).endpoints.Nodup ∧
      (∀ e, e ∈ (ofList es).endpoints ↔ e ∈ es) ∧
      ((ofList es).endpoints.Pairwise fun a b => es.idxOf a < es.idxOf b) ∧
      ofList (ofList es).endpoints = ofList es ∧
      (∀ fs, (ofList (es ++ fs)).endpoints =
        (ofList es).endpoints ++ (ofList fs).endpoints.filter (· ∉ es)) ∧
      (ofList es).size = es.toFinset.card ∧
      ∀ (engine : Engine) (roles : Nat) (r : Role) (id : SessionId) (now : Nat),
        (engine.join roles (ofList es).size r id now).1 = .answered (.error .noFreeClient) ↔
          es.toFinset.card < roles := by
  refine ⟨nodup_ofList es, fun e => mem_ofList, pairwise_idxOf es, ?_,
    fun fs => endpoints_ofList_append, size_ofList es, ?_⟩
  · exact ofList_of_nodup (nodup_ofList es)
  · intro engine roles r id now
    rw [join_eq_noFreeClient_iff, size_ofList]

example : (ofList [⟨"a", 1⟩, ⟨"b", 1⟩, ⟨"a", 1⟩, ⟨"a", 2⟩]).endpoints =
    [⟨"a", 1⟩, ⟨"b", 1⟩, ⟨"a", 2⟩] := by decide

end Labyrinth.Pool

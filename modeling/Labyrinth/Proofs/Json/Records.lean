import Mathlib.Data.List.Nodup
import Labyrinth.Proofs.Except
import Labyrinth.Proofs.Json.Reading

/-!
# Decoders and what they were made for

A decoder reads a value as something if it finds that in the outline of the value's text. A record
is read as soon as each of its fields is, whatever the record held before.
-/

namespace Labyrinth.Json

/-- The decoder finds `a` in the text of the value. -/
structure Decoder.Reads {α : Type} (d : Decoder α) (v : Json) (a : α) : Prop where
  plain : v.Plain
  decodes : d v.outlined = .ok a

variable {α β : Type} {d : Decoder α} {v : Json} {a b : α}

theorem Decoder.Reads.decode_compact (h : d.Reads v a) : decode d v.compact = .ok a :=
  (h.plain.decode_compact d).trans h.decodes

theorem Plain.outlined_ne_null (h : v.Plain) (hv : v ≠ .null) : v.outlined ≠ .null := by
  cases h with
  | null => exact absurd rfl hv
  | bool | int | text | list | object => simp [outlined]

namespace Decoder

/-! ## Single values -/

theorem reads_nat {n bound : Nat} (h : n < bound) : (Decoder.nat bound).Reads (.int n) n where
  plain := .int n
  decodes := by simp [outlined, nat, Numeral.toNat?, Option.filter, h]

theorem reads_bool (b : Bool) : Decoder.bool.Reads (.bool b) b := ⟨.bool b, rfl⟩

theorem reads_text (s : String) : Decoder.text.Reads (.text s) s := ⟨.text s, rfl⟩

theorem reads_oneOf {byName : String → Option α} {name : String} (h : byName name = some a) :
    (oneOf byName).Reads (.text name) a where
  plain := .text name
  decodes := by simp [outlined, oneOf, named, h]

theorem Reads.map (h : d.Reads v a) (f : α → β) :
    Reads (fun v => f <$> d v) v (f a) where
  plain := h.plain
  decodes := by rw [h.decodes]; rfl

theorem reads_option {f : α → Json} {o : Option α} (h : ∀ a ∈ o, d.Reads (f a) a ∧ f a ≠ .null) :
    (option d).Reads (ofOption f o) o := by
  cases o with
  | none => exact ⟨.null, rfl⟩
  | some a =>
    obtain ⟨hreads, hne⟩ := h a rfl
    refine ⟨hreads.plain, ?_⟩
    unfold option
    split
    · rename_i hnull
      exact absurd hnull (hreads.plain.outlined_ne_null hne)
    · rw [ofOption, hreads.decodes]
      rfl

/-! ## Lists -/

theorem mapM_outlined {f : α → Json} {as : List α} (h : ∀ a ∈ as, d.Reads (f a) a) :
    ((as.map f).map outlined).mapM d = .ok as := by
  induction as with
  | nil => rfl
  | cons a as ih =>
    obtain ⟨ha, has⟩ := List.forall_mem_cons.mp h
    rw [List.map_cons, List.map_cons, List.mapM_cons, ha.decodes, ih has]
    rfl

theorem reads_list {f : α → Json} {as : List α} (h : ∀ a ∈ as, d.Reads (f a) a) :
    (Decoder.list d).Reads (.list (as.map f)) as where
  plain := .list (List.forall_mem_map.mpr fun a ha => (h a ha).plain)
  decodes := by
    rw [outlined, outlinedItems_eq_map, list, mapM_outlined h]
    rfl

end Decoder

/-! ## Records -/

/-- The members are those of the fields in their order, and each is read. They make `b` of `a`. -/
inductive Fills {α : Type} : List (Field α) → List (String × Json) → α → α → Prop where
  | nil (a : α) : Fills [] [] a a
  | cons {β : Type} {name : String} {required : Bool} {d : Decoder β} {put : β → α → α}
      {fields : List (Field α)} {members : List (String × Json)} {v : Json} {x : β} {a b : α}
      (hread : d.Reads v x) (hrest : Fills fields members (put x a) b) :
      Fills (.of name required d put :: fields) ((name, v) :: members) a b

variable {fields : List (Field α)} {members : List (String × Json)}

theorem Fills.plain (h : Fills fields members a b) : ∀ m ∈ members, m.2.Plain := by
  induction h with
  | nil => simp
  | cons hread _ ih => exact List.forall_mem_cons.mpr ⟨hread.plain, ih⟩

theorem find?_name {f : Field α} (hnames : (fields.map Field.name).Nodup) (hf : f ∈ fields) :
    fields.find? (·.name == f.name) = some f := by
  induction fields with
  | nil => cases hf
  | cons g fields ih =>
    obtain ⟨hg, hnames⟩ := List.nodup_cons.mp hnames
    rcases List.mem_cons.mp hf with rfl | hf
    · simp
    · have hne : g.name ≠ f.name := fun heq => hg (heq ▸ List.mem_map_of_mem hf)
      simp [hne, ih hnames hf]

theorem Fills.putMembers_eq {all : List (Field α)} {seen : List String}
    (h : Fills fields members a b) (hall : (all.map Field.name).Nodup) (hmem : fields ⊆ all)
    (hnew : (fields.map Field.name ++ seen).Nodup) :
    Record.putMembers all seen a (members.map fun m => (.text m.1, m.2.outlined)) =
      .ok ((fields.map Field.name).reverse ++ seen, b) := by
  induction h generalizing seen with
  | nil => rfl
  | @cons β name required d put fields members v x a b hread hrest ih =>
    obtain ⟨hfield, hmem⟩ := List.cons_subset.mp hmem
    have hfind : all.find? (·.name == name) = some (.of name required d put) :=
      find?_name hall hfield
    have hseen : name ∉ seen := fun hold =>
      (List.nodup_cons.mp hnew).1 (List.mem_append_right _ hold)
    have hmore := ih hmem (List.nodup_middle.mpr hnew)
    simpa [Record.putMembers, hfind, hseen, Field.of, hread.decodes, bind, Except.bind] using hmore

theorem Fills.reads (h : Fills fields members a b) (hnames : (fields.map Field.name).Nodup) :
    (Record.decode fields a).Reads (.object members) b where
  plain := .object h.plain
  decodes := by
    have hnew : (fields.map Field.name ++ []).Nodup := by simpa using hnames
    have hput := h.putMembers_eq hnames (List.Subset.refl _) hnew
    have hfound : ¬ ∃ f ∈ fields, f.required = true ∧ ∀ g ∈ fields, ¬ g.name = f.name :=
      fun ⟨f, hf, _, hmissing⟩ => hmissing f hf rfl
    simp [outlined, Record.decode, hput, hfound, bind, Except.bind, pure, Except.pure]

/-! ## What every field keeps -/

section Keeps

variable {P : α → Prop} (hkeeps : ∀ f ∈ fields, ∀ v a b, P a → f.put v a = .ok b → P b)

include hkeeps

end Keeps

end Labyrinth.Json

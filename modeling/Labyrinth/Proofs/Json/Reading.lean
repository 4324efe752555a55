import Labyrinth.Json.Decoder
import Labyrinth.Proofs.Json.Scalars

/-!
# Reading what was written

The compact text of a value without floating-point numbers is read back as an outline that holds all
of the value, and nothing of the text is left.
-/

namespace Labyrinth.Json

/-- The value holds no floating-point number. Those are written to be close, not to be read back. -/
inductive Plain : Json → Prop where
  | null : Plain .null
  | bool (b : Bool) : Plain (.bool b)
  | int (n : Int) : Plain (.int n)
  | text (s : String) : Plain (.text s)
  | list {items : List Json} (h : ∀ v ∈ items, Plain v) : Plain (.list items)
  | object {members : List (String × Json)} (h : ∀ m ∈ members, Plain m.2) :
      Plain (.object members)

mutual

/-- The outline of the text of a plain value. -/
def outlined : Json → Outline
  | .null | .double _ | .single _ => .null
  | .bool b => .bool b
  | .int n => .number ⟨decide (n < 0), n.natAbs, 0, true⟩
  | .text s => .text s
  | .list items => .list (outlinedItems items) none
  | .object members => .object (outlinedMembers members) none

def outlinedItems : List Json → List Outline
  | [] => []
  | v :: vs => outlined v :: outlinedItems vs

def outlinedMembers : List (String × Json) → List (Outline × Outline)
  | [] => []
  | (k, v) :: ms => (.text k, outlined v) :: outlinedMembers ms

end

@[simp] theorem outlinedItems_eq_map (items : List Json) :
    outlinedItems items = items.map outlined := by
  induction items with
  | nil => rfl
  | cons v vs ih => rw [outlinedItems, ih, List.map_cons]

@[simp] theorem outlinedMembers_eq_map (members : List (String × Json)) :
    outlinedMembers members = members.map fun m => (.text m.1, m.2.outlined) := by
  induction members with
  | nil => rfl
  | cons m ms ih => rw [outlinedMembers, ih, List.map_cons]

/-! ## How a value begins -/

variable {c : Char} {cs r rest : List Char} {fuel : Nat} {v : Json}

theorem skipBlanks_cons (h : isBlank c = false) : skipBlanks (c :: cs) = c :: cs := by
  simp [skipBlanks, h]

theorem ne_of_isDigit {k : Char} (h : c.isDigit = true) (hk : k.isDigit = false) : c ≠ k := by
  rintro rfl
  rw [h] at hk
  cases hk

theorem isBlank_of_isDigit (h : c.isDigit = true) : isBlank c = false := by
  simp [isBlank, ne_of_isDigit h (k := ' ') rfl, ne_of_isDigit h (k := '\t') rfl,
    ne_of_isDigit h (k := '\n') rfl, ne_of_isDigit h (k := '\r') rfl]

theorem toDigits_eq_cons (n : Nat) :
    ∃ d ds, Nat.toDigits 10 n = d :: ds ∧ d.isDigit = true := by
  cases hdigits : Nat.toDigits 10 n with
  | nil => exact absurd hdigits Nat.toDigits_ne_nil
  | cons d ds =>
    have hmem : d ∈ Nat.toDigits 10 n := hdigits ▸ List.mem_cons_self
    exact ⟨d, ds, rfl, Nat.isDigit_of_mem_toDigits (by decide) (by decide) hmem⟩

theorem chars_int (n : Int) : (Json.int n).chars =
    if n < 0 then '-' :: Nat.toDigits 10 n.natAbs else Nat.toDigits 10 n.natAbs := by
  cases n with
  | ofNat n => simp [chars, toString, Int.repr]
  | negSucc n => simp [chars, toString, Int.repr]

theorem Plain.chars_eq_cons (h : v.Plain) :
    ∃ c cs, v.chars = c :: cs ∧ isBlank c = false ∧ c ≠ ']' := by
  cases h with
  | null => exact ⟨_, _, rfl, by decide, by decide⟩
  | bool b => cases b <;> exact ⟨_, _, rfl, by decide, by decide⟩
  | int n =>
    rw [chars_int]
    split
    · exact ⟨_, _, rfl, by decide, by decide⟩
    · obtain ⟨d, ds, hdigits, hd⟩ := toDigits_eq_cons n.natAbs
      exact ⟨d, ds, hdigits, isBlank_of_isDigit hd, ne_of_isDigit hd rfl⟩
  | text | list | object => exact ⟨_, _, rfl, by decide, by decide⟩

/-! ## Scalars -/

theorem readValue_digit (h : c.isDigit = true) :
    readValue (fuel + 1) (c :: cs) = readNumber false (c :: cs) := by
  simp [readValue, skipBlanks_cons (isBlank_of_isDigit h), h, ne_of_isDigit h (k := '"') rfl,
    ne_of_isDigit h (k := '[') rfl, ne_of_isDigit h (k := '\x7b') rfl,
    ne_of_isDigit h (k := 'n') rfl, ne_of_isDigit h (k := 't') rfl,
    ne_of_isDigit h (k := 'f') rfl, ne_of_isDigit h (k := '-') rfl]

theorem readValue_int (n : Int) (h : Stops rest) :
    readValue (fuel + 1) ((Json.int n).chars ++ rest) =
      ⟨.number ⟨decide (n < 0), n.natAbs, 0, true⟩, .ok rest⟩ := by
  have hnumber := fun negative => readNumber_toDigits h negative n.natAbs
  rw [chars_int]
  split
  · rename_i hn
    simp [readValue, skipBlanks, isBlank, hnumber, hn]
  · rename_i hn
    obtain ⟨d, ds, hdigits, hd⟩ := toDigits_eq_cons n.natAbs
    rw [hdigits] at hnumber ⊢
    rw [List.cons_append, readValue_digit hd, ← List.cons_append, hnumber]
    simp [hn]

/-! ## Lists and objects -/

/-- The text of the value is read, with as much fuel as the value needs, whatever follows. -/
def Legible (v : Json) : Prop :=
  ∀ fuel rest, 2 * v.chars.length ≤ fuel → Stops rest →
    readValue fuel (v.chars ++ rest) = ⟨v.outlined, .ok rest⟩

theorem stops_cons (h : c.isDigit = false ∧ c ≠ '.' ∧ c ≠ 'e' ∧ c ≠ 'E') : Stops (c :: cs) := by
  intro d hd
  obtain rfl := Option.mem_some.mp hd
  exact h

/-- The comma behind an item pays for going on to the next one. -/
theorem readItems_itemChars {items : List Json} (hitems : items ≠ [])
    (hlegible : ∀ v ∈ items, Legible v) (hfuel : 2 * (itemChars items).length + 1 ≤ fuel) :
    readItems fuel (itemChars items ++ ']' :: rest) = (items.map outlined, .ok rest) := by
  induction items generalizing fuel with
  | nil => exact absurd rfl hitems
  | cons v vs ih =>
    obtain ⟨hv, hvs⟩ := List.forall_mem_cons.mp hlegible
    obtain ⟨fuel, rfl⟩ : ∃ n, fuel = n + 1 := ⟨fuel - 1, by omega⟩
    cases vs with
    | nil =>
      rw [itemChars] at hfuel
      have hread := hv fuel (']' :: rest) (by omega) (stops_cons (by decide))
      simp [readItems, itemChars, hread, skipBlanks, isBlank]
    | cons w ws =>
      simp only [itemChars, List.length_append, List.length_cons] at hfuel
      have hread := hv fuel (',' :: (itemChars (w :: ws) ++ ']' :: rest)) (by omega)
        (stops_cons (by decide))
      have hmore : readItems fuel (itemChars (w :: ws) ++ ']' :: rest) =
          ((w :: ws).map outlined, .ok rest) := ih (List.cons_ne_nil _ _) hvs (by omega)
      simp [readItems, itemChars, hread, hmore, skipBlanks, isBlank]

theorem readMembers_memberChars {members : List (String × Json)} (hmembers : members ≠ [])
    (hlegible : ∀ m ∈ members, Legible m.2) (hfuel : 2 * (memberChars members).length + 1 ≤ fuel) :
    readMembers fuel (memberChars members ++ '\x7d' :: rest) =
      (members.map fun m => (.text m.1, m.2.outlined), .ok rest) := by
  induction members generalizing fuel with
  | nil => exact absurd rfl hmembers
  | cons m ms ih =>
    obtain ⟨k, v⟩ := m
    obtain ⟨(hv : Legible v), hms⟩ := List.forall_mem_cons.mp hlegible
    obtain ⟨fuel, rfl⟩ : ∃ n, fuel = n + 1 := ⟨fuel - 1, by omega⟩
    have hkey := readText_quoted k
    cases ms with
    | nil =>
      simp only [memberChars, List.length_append, List.length_cons] at hfuel
      have hread := hv fuel ('\x7d' :: rest) (by omega) (stops_cons (by decide))
      simp [readMembers, memberChars, quoted, hkey, hread, skipBlanks, isBlank]
    | cons m ms =>
      simp only [memberChars, List.length_append, List.length_cons] at hfuel
      have hread := hv fuel (',' :: (memberChars (m :: ms) ++ '\x7d' :: rest)) (by omega)
        (stops_cons (by decide))
      have hmore : readMembers fuel (memberChars (m :: ms) ++ '\x7d' :: rest) =
          ((m :: ms).map fun m => (.text m.1, m.2.outlined), .ok rest) :=
        ih (List.cons_ne_nil _ _) hms (by omega)
      simp [readMembers, memberChars, quoted, hkey, hread, hmore, skipBlanks, isBlank]

theorem itemChars_eq_cons {items : List Json} (hitems : items ≠ [])
    (hplain : ∀ v ∈ items, Plain v) :
    ∃ c cs, itemChars items = c :: cs ∧ isBlank c = false ∧ c ≠ ']' := by
  match items with
  | [] => exact absurd rfl hitems
  | [v] => exact (hplain v List.mem_cons_self).chars_eq_cons
  | v :: w :: ws =>
    obtain ⟨c, cs, hchars, hc⟩ := (hplain v List.mem_cons_self).chars_eq_cons
    exact ⟨c, cs ++ ',' :: itemChars (w :: ws), by simp [itemChars, hchars], hc⟩

theorem memberChars_eq_cons {members : List (String × Json)} (hmembers : members ≠ []) :
    ∃ cs, memberChars members = '"' :: cs := by
  match members with
  | [] => exact absurd rfl hmembers
  | [(k, v)] => exact ⟨_, rfl⟩
  | (k, v) :: m :: ms => exact ⟨_, rfl⟩

theorem Plain.legible_of_succ (h : v.Plain)
    (hread : ∀ fuel rest, 2 * v.chars.length ≤ fuel + 1 → Stops rest →
      readValue (fuel + 1) (v.chars ++ rest) = ⟨v.outlined, .ok rest⟩) : Legible v := by
  intro fuel rest hfuel hrest
  obtain ⟨c, cs, hchars, -⟩ := h.chars_eq_cons
  have hpositive : 0 < v.chars.length := by simp [hchars]
  obtain ⟨fuel, rfl⟩ : ∃ n, fuel = n + 1 := ⟨fuel - 1, by omega⟩
  exact hread fuel rest hfuel hrest

theorem readValue_bracket (hblank : isBlank c = false) (hc : c ≠ ']') :
    readValue (fuel + 1) ('[' :: c :: cs) =
      ⟨.list (readItems fuel (c :: cs)).1 (cutOf (readItems fuel (c :: cs)).2),
        (readItems fuel (c :: cs)).2⟩ := by
  simp only [readValue, skipBlanks_cons (show isBlank '[' = false from rfl)]
  rw [skipBlanks_cons hblank]
  split
  · contradiction
  · rename_i h
    exact absurd (List.cons.inj h).1 hc
  · rfl

theorem legible_list {items : List Json} (hplain : ∀ v ∈ items, Plain v)
    (hlegible : ∀ v ∈ items, Legible v) : Legible (.list items) := by
  apply (Plain.list hplain).legible_of_succ
  intro fuel rest hfuel _
  by_cases hitems : items = []
  · subst hitems
    simp [readValue, chars, itemChars, outlined, skipBlanks, isBlank]
  · simp only [chars, List.length_cons, List.length_append] at hfuel
    have hread : readItems fuel (itemChars items ++ ']' :: rest) = (items.map outlined, .ok rest) :=
      readItems_itemChars hitems hlegible (by omega)
    obtain ⟨c, cs, hchars, hblank, hc⟩ := itemChars_eq_cons hitems hplain
    rw [hchars, List.cons_append] at hread
    rw [chars, List.append_assoc, List.cons_append, hchars, List.cons_append,
      readValue_bracket hblank hc]
    simp [outlined, hread, cutOf]

theorem legible_object {members : List (String × Json)} (hplain : ∀ m ∈ members, Plain m.2)
    (hlegible : ∀ m ∈ members, Legible m.2) : Legible (.object members) := by
  apply (Plain.object hplain).legible_of_succ
  intro fuel rest hfuel _
  by_cases hmembers : members = []
  · subst hmembers
    simp [readValue, chars, memberChars, outlined, skipBlanks, isBlank]
  · simp only [chars, List.length_cons, List.length_append] at hfuel
    have hread : readMembers fuel (memberChars members ++ '\x7d' :: rest) =
        (members.map fun m => (.text m.1, m.2.outlined), .ok rest) :=
      readMembers_memberChars hmembers hlegible (by omega)
    obtain ⟨cs, hchars⟩ := memberChars_eq_cons hmembers
    rw [hchars, List.cons_append] at hread
    simp [readValue, chars, hchars, skipBlanks, isBlank, outlined, hread, cutOf]

theorem Plain.legible (h : v.Plain) : Legible v := by
  induction h with
  | list h ih => exact legible_list h ih
  | object h ih => exact legible_object h ih
  | int n => exact (Plain.int n).legible_of_succ fun _ _ _ hrest => readValue_int n hrest
  | null =>
    apply Plain.null.legible_of_succ
    intros
    simp [readValue, chars, skipBlanks, isBlank, readWord, outlined]
  | bool b =>
    apply (Plain.bool b).legible_of_succ
    intros
    cases b <;> simp [readValue, chars, skipBlanks, isBlank, readWord, outlined]
  | text s =>
    apply (Plain.text s).legible_of_succ
    intros
    simp [readValue, chars, quoted, skipBlanks, isBlank, readText_quoted, outlined]

theorem Plain.outline_compact (h : v.Plain) : outline v.compact = (v.outlined, none) := by
  have hstops : Stops [] := by simp [Stops]
  have hread := h.legible (2 * v.chars.length + 2) [] (by omega) hstops
  rw [List.append_nil] at hread
  simp [outline, compact, hread, skipBlanks]

theorem Plain.decode_compact {α : Type} (h : v.Plain) (d : Decoder α) :
    decode d v.compact = d v.outlined := by
  simp only [decode, h.outline_compact, bind_pure]

end Labyrinth.Json

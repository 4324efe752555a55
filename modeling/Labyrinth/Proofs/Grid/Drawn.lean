import Labyrinth.Grid.Text
import Labyrinth.Proofs.Grid.Counting
import Mathlib.Data.Set.List
import Mathlib.Tactic.Tauto

/-!
# Grids and their drawings

Rows are read as a grid exactly if they form a square of `#` and `.`, and then each tile stands where
its character stood. The drawing of a grid shows the rows that it was read from, and every grid with
one tile for each cell is read back from the lines of its drawing.
-/

namespace Labyrinth

/-! ## Lines of a text -/

namespace Text

/-- A carriage return at the end of a line does not belong to it. -/
def withoutReturn (line : List Char) : List Char :=
  if line.getLast? = some '\r' then line.dropLast else line

/-- The lines of a text behind the beginning of its first line. -/
def linesFrom (line : List Char) : List Char → List String
  | [] => if line = [] then [] else [String.ofList line]
  | c :: rest =>
    if c = '\n' then String.ofList (withoutReturn line) :: linesFrom [] rest
    else linesFrom (line ++ [c]) rest

/-- The lines of a text. Each ends with a line feed, which the last one may lack. -/
def lines (text : String) : List String := linesFrom [] text.toList

theorem linesFrom_append {row : List Char} (h : '\n' ∉ row) (line rest : List Char) :
    linesFrom line (row ++ '\n' :: rest) =
      String.ofList (withoutReturn (line ++ row)) :: linesFrom [] rest := by
  induction row generalizing line with
  | nil => simp [linesFrom]
  | cons c row ih =>
    simp only [List.mem_cons, not_or] at h
    obtain ⟨hc, hrow⟩ := h
    simp [linesFrom, Ne.symm hc, ih hrow]

theorem withoutReturn_of_not_mem {line : List Char} (h : '\r' ∉ line) :
    withoutReturn line = line := by
  unfold withoutReturn
  rw [if_neg]
  intro hlast
  exact h (List.mem_of_getLast? hlast)

theorem lines_join {rows : List String}
    (h : ∀ row ∈ rows, '\n' ∉ row.toList ∧ '\r' ∉ row.toList) :
    lines (String.join (rows.map (· ++ "\n"))) = rows := by
  unfold lines
  induction rows with
  | nil => rfl
  | cons row rows ih =>
    obtain ⟨⟨hfeed, hreturn⟩, hrows⟩ := List.forall_mem_cons.mp h
    have htext : (String.join ((row :: rows).map (· ++ "\n"))).toList =
        row.toList ++ '\n' :: (String.join (rows.map (· ++ "\n"))).toList := by
      simp
    rw [htext, linesFrom_append hfeed, List.nil_append, withoutReturn_of_not_mem hreturn,
      String.ofList_toList, ih hrows]

end Text

/-! ## Characters of tiles -/

namespace Tile

theorem ofChar?_eq_some_iff {c : Char} {t : Tile} : ofChar? c = some t ↔ c = t.char := by
  constructor
  · intro h
    unfold ofChar? at h
    split at h <;> cases h <;> rfl
  · rintro rfl
    exact ofChar?_char t

theorem char_inj {t u : Tile} : t.char = u.char ↔ t = u := by
  cases t <;> cases u <;> simp [char]

theorem exists_char_iff {c : Char} : (∃ t : Tile, c = t.char) ↔ c = '#' ∨ c = '.' := by
  constructor
  · rintro ⟨t, rfl⟩
    cases t <;> simp [char]
  · rintro (rfl | rfl)
    · exact ⟨.wall, rfl⟩
    · exact ⟨.floor, rfl⟩

theorem mapM_ofChar?_eq_some_iff {cs : List Char} {ts : List Tile} :
    cs.mapM ofChar? = some ts ↔ cs = ts.map char := by
  induction cs generalizing ts with
  | nil => simp [eq_comm]
  | cons c cs ih =>
    rw [List.mapM_cons]
    constructor
    · intro h
      obtain ⟨t, ht, h⟩ := Option.bind_eq_some_iff.mp h
      obtain ⟨us, hus, h⟩ := Option.bind_eq_some_iff.mp h
      obtain rfl : t :: us = ts := Option.some.inj h
      rw [ofChar?_eq_some_iff.mp ht, ih.mp hus, List.map_cons]
    · intro h
      cases ts with
      | nil => cases h
      | cons t us =>
        obtain ⟨rfl, rfl⟩ := List.cons.inj h
        simp [ih.mpr rfl]

end Tile

/-! ## Grids as tables of tiles -/

namespace Grid

variable {g : Grid} {table : List (List Tile)} {rows : List String} {c : Cell}

/-- The tiles of the grid, row by row. -/
structure HasRows (g : Grid) (table : List (List Tile)) : Prop where
  size : table.length = g.size
  square : ∀ row ∈ table, row.length = g.size
  tiles : g.tiles.toList = table.flatten

/-- The row of characters that stands for a row of tiles. -/
def drawnRow (row : List Tile) : String := String.ofList (row.map Tile.char)

theorem getElem?_flatten {n : ℕ} (h : ∀ row ∈ table, row.length = n) {x z : ℕ} (hx : x < n) :
    table.flatten[z * n + x]? = table[z]?.bind (·[x]?) := by
  induction table generalizing z with
  | nil => simp
  | cons row table ih =>
    obtain ⟨hrow, htable⟩ := List.forall_mem_cons.mp h
    rw [List.flatten_cons]
    cases z with
    | zero => simp [List.getElem?_append_left (hrow.symm ▸ hx)]
    | succ z =>
      rw [List.getElem?_append_right (by rw [hrow, Nat.succ_mul]; omega), hrow, Nat.succ_mul,
        show z * n + n + x - n = z * n + x by omega, ih htable]
      simp

theorem HasRows.wellFormed (h : g.HasRows table) : g.WellFormed := by
  have hlengths : table.map List.length = List.replicate table.length g.size :=
    List.map_eq_replicate_iff.mpr h.square
  unfold WellFormed
  rw [← Array.length_toList, h.tiles, List.length_flatten, hlengths, h.size,
    List.sum_replicate_nat]

theorem HasRows.get?_eq (h : g.HasRows table) (hc : g.contains c) :
    g.get? c = table[c.z.toNat]?.bind (·[c.x.toNat]?) := by
  have hx : c.x.toNat < g.size := by
    obtain ⟨hx, -, hlt, -⟩ := contains_iff.mp hc
    omega
  rw [get?, if_pos hc, index, ← getElem?_flatten h.square hx, ← h.tiles, Array.getElem?_toList]

theorem HasRows.rowText_eq (h : g.HasRows table) {z : ℕ} {row : List Tile}
    (hrow : table[z]? = some row) : g.rowText z = drawnRow row := by
  have hlength : row.length = g.size := h.square row (List.mem_of_getElem? hrow)
  have htile : ∀ x < g.size, g.tiles[z * g.size + x]? = row[x]? := by
    intro x hx
    rw [← Array.getElem?_toList, h.tiles, getElem?_flatten h.square hx, hrow]
    rfl
  unfold rowText drawnRow
  congr 1
  refine List.ext_getElem (by simp [hlength]) fun x hx hx' => ?_
  simp only [List.length_map, List.length_range] at hx
  simp [Array.getD_eq_getD_getElem?, htile x hx, hlength.symm ▸ hx]

theorem HasRows.rows_eq (h : g.HasRows table) : g.rows = table.map drawnRow := by
  unfold rows
  refine List.ext_getElem (by simp [h.size]) fun z _ hz => ?_
  rw [List.length_map] at hz
  simp [h.rowText_eq (List.getElem?_eq_getElem hz)]

theorem WellFormed.exists_hasRows (h : g.WellFormed) : ∃ table, g.HasRows table := by
  refine ⟨(List.range g.size).map fun z => (List.range g.size).map fun x =>
    g.tiles.getD (z * g.size + x) .wall, by simp, by simp, ?_⟩
  have htiles : (List.range (g.size * g.size)).map (g.tiles.getD · .wall) = g.tiles.toList := by
    rw [← h]
    refine List.ext_getElem (by simp) fun i hi _ => ?_
    simp only [List.length_map, List.length_range] at hi
    simp [hi]
  rw [← List.flatMap_def, ← htiles, ← flatMap_range_mul_add, List.map_flatMap]
  simp [Function.comp_def]

/-! ## Reading rows -/

theorem rowOfText?_eq_some_iff {n : ℕ} {row : String} {ts : List Tile} :
    rowOfText? n row = some ts ↔ ts.length = n ∧ row = drawnRow ts := by
  unfold rowOfText? drawnRow
  split
  · rename_i hlength
    rw [Tile.mapM_ofChar?_eq_some_iff, ← String.toList_inj, String.toList_ofList, iff_and_self]
    intro hrow
    rw [← hlength, ← String.length_toList, hrow, List.length_map]
  · rename_i hlength
    simp only [reduceCtorEq, false_iff, not_and]
    rintro hts rfl
    simp [hts] at hlength

theorem mapM_rowOfText?_eq_some_iff {n : ℕ} :
    rows.mapM (rowOfText? n) = some table ↔
      (∀ row ∈ table, row.length = n) ∧ rows = table.map drawnRow := by
  induction rows generalizing table with
  | nil => cases table <;> simp
  | cons row rows ih =>
    rw [List.mapM_cons]
    cases table with
    | nil => simp [Option.bind_eq_some_iff]
    | cons ts table =>
      simp [Option.bind_eq_some_iff, rowOfText?_eq_some_iff, ih, and_assoc]
      tauto

theorem ofRows?_eq_some_iff :
    ofRows? rows = some g ↔ ∃ table, g.HasRows table ∧ rows = table.map drawnRow := by
  unfold ofRows?
  constructor
  · intro h
    obtain ⟨table, htable, h⟩ := Option.bind_eq_some_iff.mp h
    obtain rfl := Option.some.inj h
    obtain ⟨hsquare, hrows⟩ := mapM_rowOfText?_eq_some_iff.mp htable
    exact ⟨table, ⟨by simp [hrows], hsquare, by simp⟩, hrows⟩
  · rintro ⟨table, h, rfl⟩
    have hlength : (table.map drawnRow).length = g.size := by simp [h.size]
    rw [hlength, mapM_rowOfText?_eq_some_iff.mpr ⟨h.square, rfl⟩]
    simp [← h.tiles]

theorem exists_drawnRow_iff {row : String} :
    (∃ ts, drawnRow ts = row) ↔ ∀ ch ∈ row.toList, ch = '#' ∨ ch = '.' := by
  simp only [← Tile.exists_char_iff]
  constructor
  · rintro ⟨ts, rfl⟩ ch hch
    rw [drawnRow, String.toList_ofList] at hch
    obtain ⟨t, -, rfl⟩ := List.mem_map.mp hch
    exact ⟨t, rfl⟩
  · intro h
    have hrow : row.toList ∈ Set.range (List.map Tile.char) := by
      rw [Set.range_list_map]
      intro ch hch
      obtain ⟨t, rfl⟩ := h ch hch
      exact ⟨t, rfl⟩
    obtain ⟨ts, hts⟩ := hrow
    exact ⟨ts, by rw [drawnRow, hts, String.ofList_toList]⟩

theorem exists_ofRows?_iff :
    (∃ g, ofRows? rows = some g) ↔
      ∀ row ∈ rows, row.length = rows.length ∧ ∀ ch ∈ row.toList, ch = '#' ∨ ch = '.' := by
  simp only [ofRows?_eq_some_iff, ← exists_drawnRow_iff]
  constructor
  · rintro ⟨g, table, h, rfl⟩ row hrow
    obtain ⟨ts, hts, rfl⟩ := List.mem_map.mp hrow
    exact ⟨by simp [drawnRow, h.size, h.square ts hts], ts, rfl⟩
  · intro h
    have htable : rows ∈ Set.range (List.map drawnRow) := by
      rw [Set.range_list_map]
      exact fun row hrow => (h row hrow).2
    obtain ⟨table, rfl⟩ := htable
    refine ⟨⟨table.length, table.flatten.toArray⟩, table, ⟨rfl, fun ts hts => ?_, by simp⟩, rfl⟩
    have hlength := (h _ (List.mem_map_of_mem hts)).1
    simpa [drawnRow] using hlength

/-! ## What was read -/

/-- The character of some rows at a cell. -/
def charAt? (rows : List String) (c : Cell) : Option Char :=
  if 0 ≤ c.x ∧ 0 ≤ c.z then rows[c.z.toNat]?.bind (·.toList[c.x.toNat]?) else none

theorem HasRows.charAt?_eq (h : g.HasRows table) (c : Cell) :
    charAt? (table.map drawnRow) c = (g.get? c).map Tile.char := by
  by_cases hc : g.contains c
  · obtain ⟨hx, hz, -, -⟩ := contains_iff.mp hc
    rw [h.get?_eq hc, charAt?, if_pos ⟨hx, hz⟩]
    cases hrow : table[c.z.toNat]? <;> simp [hrow, drawnRow]
  · rw [get?, if_neg hc, Option.map_none, charAt?]
    split
    · rename_i hpos
      rw [contains_iff] at hc
      cases hrow : table[c.z.toNat]? with
      | none => simp [hrow]
      | some row =>
        have hlength := h.square row (List.mem_of_getElem? hrow)
        obtain ⟨hz, -⟩ := List.getElem?_eq_some_iff.mp hrow
        rw [h.size] at hz
        have hx : row.length ≤ c.x.toNat := by omega
        simp [hrow, drawnRow, hx]
    · rfl

theorem WellFormed.get?_eq_none_iff (h : g.WellFormed) : g.get? c = none ↔ ¬ g.contains c := by
  unfold get?
  by_cases hc : g.contains c
  · simp [hc, h.index_lt hc]
  · simp [hc]

theorem HasRows.text_eq (h : g.HasRows table) :
    g.text = String.join ((table.map drawnRow).map (· ++ "\n")) := by
  rw [text, h.rows_eq]

theorem lines_text (g : Grid) : Text.lines g.text = g.rows := by
  have hchar : ∀ t : Tile, t.char ≠ '\n' ∧ t.char ≠ '\r' := by
    intro t
    cases t <;> decide
  apply Text.lines_join
  intro row hrow
  obtain ⟨z, -, rfl⟩ := List.mem_map.mp hrow
  simp [rowText, hchar]

/-- Exactly the squares of `#` and `.` are read as grids. Such a grid has floor where there was a
`.`, a wall where there was a `#` and nothing outside, and is drawn as the rows that it was read
from. A grid with one tile for each cell is read back from the lines of its drawing. -/
theorem drawing_roundTrip :
    (∀ rows : List String,
      ((∃ g, ofRows? rows = some g) ↔
        ∀ row ∈ rows, row.length = rows.length ∧ ∀ ch ∈ row.toList, ch = '#' ∨ ch = '.') ∧
      ∀ g, ofRows? rows = some g →
        (∀ c, g.get? c = some .floor ↔ charAt? rows c = some '.') ∧
        (∀ c, g.get? c = some .wall ↔ charAt? rows c = some '#') ∧
        (∀ c, g.get? c = none ↔
          ¬ (0 ≤ c.x ∧ 0 ≤ c.z ∧ c.x < rows.length ∧ c.z < rows.length)) ∧
        g.text = String.join (rows.map (· ++ "\n"))) ∧
      ∀ g : Grid, g.WellFormed → ofRows? (Text.lines g.text) = some g := by
  refine ⟨fun rows => ⟨exists_ofRows?_iff, fun g hg => ?_⟩, fun g hg => ?_⟩
  · obtain ⟨table, h, rfl⟩ := ofRows?_eq_some_iff.mp hg
    have hchar : ∀ c t, g.get? c = some t ↔ charAt? (table.map drawnRow) c = some t.char := by
      intro c t
      rw [h.charAt?_eq]
      simp [Tile.char_inj]
    refine ⟨fun c => hchar c .floor, fun c => hchar c .wall, fun c => ?_, h.text_eq⟩
    rw [h.wellFormed.get?_eq_none_iff, contains_iff, List.length_map, h.size]
  · obtain ⟨table, h⟩ := hg.exists_hasRows
    rw [lines_text, ofRows?_eq_some_iff]
    exact ⟨table, h, h.rows_eq⟩

/-- Three rows of which no two are alike, and which differ from their columns. -/
theorem drawing_roundTrip_uneven :
    let rows := ["#..", "##.", "..."]
    let g : Grid := ⟨3, #[.wall, .floor, .floor, .wall, .wall, .floor, .floor, .floor, .floor]⟩
    ofRows? rows = some g ∧ g.WellFormed ∧ g.get? ⟨2, 0⟩ = some .floor ∧
      g.get? ⟨1, 1⟩ = some .wall ∧ g.get? ⟨0, 3⟩ = none ∧ g.text = "#..\n##.\n...\n" ∧
      ofRows? (Text.lines g.text) = some g := by
  intro rows g
  have hread : ofRows? rows = some g := by decide
  have hwell : g.WellFormed := by decide
  obtain ⟨hfloor, hwall, hnone, htext⟩ := (drawing_roundTrip.1 rows).2 g hread
  exact ⟨hread, hwell, (hfloor _).mpr (by decide), (hwall _).mpr (by decide),
    (hnone _).mpr (by decide), htext, drawing_roundTrip.2 g hwell⟩

end Grid

end Labyrinth

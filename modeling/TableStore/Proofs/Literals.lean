import TableStore.Proofs.Query
import TableStore.Proofs.ShownValues

/-!
# Values as literals

A value that a column holds is written as a literal by its text. Any column of its type takes the
literal for the value, so inserting the literals of a row inserts the row again, and a condition on
one of them selects it.
-/
namespace TableStore

open Sql

/-! Values -/

namespace Value

/-- The literal for a value. -/
def literal : Value → Literal
  | null => .null
  | v => .text v.text

theorem quote_notMem_of_isNumeral {cs : List Char} (h : Json.isNumeral cs = true) : '"' ∉ cs :=
  fun hq => (Json.isSpace_of_isNumeralChar ((Json.isNumeralChar_of_isNumeral h).2 _ hq)).2 rfl

/-- Only strings can have quotes in their text. -/
theorem quote_notMem_text {v : Value} (hf : v.isFinite = true)
    (hs : ∀ s, v = .string s → '"' ∉ s.toList) : '"' ∉ v.text.toList := by
  cases v with
  | null => decide
  | boolean b => cases b <;> decide
  | integer i => exact quote_notMem_of_isNumeral (Numeral.isNumeral_integerText i)
  | float x =>
    rw [text, floatText_of_isFinite hf]
    exact quote_notMem_of_isNumeral (NumberLayout.isNumeral_write numberLayout (.inl rfl) hf)
  | string s => exact hs s rfl

theorem equals_self {v : Value} (h : v.isFinite = true) : v.equals v = true := by
  cases v with
  | float x =>
    simp [equals, Binary64.equals, Binary64.isNaN_of_isFinite h]
  | _ => simp [equals]

end Value

namespace DataType

/-- A value of the type is what its literal is brought to. -/
theorem convert?_literal {t : DataType} {v : Value} (h : t.stores v = true) :
    t.convert? v.literal.value = some v := by
  by_cases hn : v = .null
  · subst hn
    exact convert?_null t
  have ht : v.type? = some t := type?_of_convert? hn (convert?_of_stores h)
  have hl : v.literal.value = .string v.text := by
    cases v <;> first | rfl | exact absurd rfl hn
  rw [hl, convert?_text hn (isFinite_of_stores h), convert?_of_stores h]
  rintro ⟨rfl, hd⟩
  rw [ht] at hd
  cases hd

end DataType

theorem Column.convert_literal {c : Column} {v : Value} (h : c.type.stores v = true) :
    c.convert v.literal.value = .ok v := by
  rw [Column.convert, DataType.convert?_literal h]
  exact if_pos (DataType.admits_of_stores h)

/-! Rows -/

theorem exists_cell_of_mem {columns : List Column} {cells : List (String × Value)}
    (h : List.Forall₂ Column.Holds columns cells) {c : Column} (hc : c ∈ columns) :
    ∃ v, (c.name, v) ∈ cells ∧ c.type.stores v = true := by
  induction h with
  | nil => cases hc
  | @cons d cell _ _ hd _ ih =>
    rcases List.mem_cons.1 hc with rfl | hc
    · obtain ⟨name, v⟩ := cell
      obtain ⟨rfl, hs⟩ := hd
      exact ⟨v, by simp, hs⟩
    · obtain ⟨v, hv, hs⟩ := ih hc
      exact ⟨v, by simp [hv], hs⟩

namespace Row

/-- The values of a row, in column order. -/
def values (r : Row) : List Value := r.cells.map Prod.snd

/-- The literals for a row. -/
def literals (r : Row) : List Literal := r.values.map Value.literal

variable {columns : List Column} {r : Row}

theorem Fits.length_literals (h : r.Fits columns) : r.literals.length = columns.length := by
  simpa [literals, values] using (List.Forall₂.length_eq h).symm

/-- Cells are found by their names. -/
theorem Fits.get?_eq_some_iff (h : r.Fits columns) (hn : (columns.map Column.name).Nodup)
    {name : String} {v : Value} : r.get? name = some v ↔ (name, v) ∈ r.cells := by
  rw [← map_fst_of_holds h] at hn
  exact NameMap.lookup_eq_some_iff_mem hn

theorem Fits.get? (h : r.Fits columns) (hn : (columns.map Column.name).Nodup) {c : Column}
    (hc : c ∈ columns) : ∃ v, r.get? c.name = some v ∧ c.type.stores v = true := by
  obtain ⟨v, hv, hs⟩ := exists_cell_of_mem h hc
  exact ⟨v, (h.get?_eq_some_iff hn).2 hv, hs⟩

end Row

/-! Tables -/

namespace Table

/-- What the columns read the literals as, up to the first that cannot be read. -/
def readAll (columns : List Column) (literals : List Literal) : Except Error (List Value) :=
  (columns.zip literals).mapM fun p => p.1.convert p.2.value

theorem readAll_cons (c : Column) (cs : List Column) (l : Literal) (ls : List Literal) :
    readAll (c :: cs) (l :: ls) = (do
      let v ← c.convert l.value
      let vs ← readAll cs ls
      return v :: vs) := by
  rw [readAll, List.zip_cons_cons, List.mapM_cons]
  rfl

/-- Cells made of a literal for each column are what the columns read them as, in column order. -/
theorem makeCells_of_lookup_zip {values : List (String × Value)} {columns : List Column}
    {literals : List Literal} (hl : literals.length = columns.length)
    (hv : ∀ p ∈ columns.zip literals, values.lookup p.1.name = some p.2.value) :
    makeCells values columns = (readAll columns literals).map (columns.map Column.name).zip := by
  induction columns generalizing literals with
  | nil => rfl
  | cons c cs ih =>
    obtain _ | ⟨l, ls⟩ := literals
    · cases hl
    · rw [List.zip_cons_cons, List.forall_mem_cons] at hv
      rw [makeCells, hv.1, Option.getD_some, ih (Nat.succ.inj hl) hv.2, readAll_cons]
      cases c.convert l.value with
      | error e => rfl
      | ok w => cases readAll cs ls <;> rfl

/-- The literals for cells that the columns hold are read as the values of the cells. -/
theorem readAll_literals {columns : List Column} {cells : List (String × Value)}
    (h : List.Forall₂ Column.Holds columns cells) :
    readAll columns ((cells.map Prod.snd).map Value.literal) = .ok (cells.map Prod.snd) := by
  induction h with
  | nil => rfl
  | cons hc _ ih =>
    rw [List.map_cons, List.map_cons, readAll_cons, Column.convert_literal hc.2, ok_bind, ih]
    rfl

variable {t : Table} {r : Row}

/-- A row of one literal for each column is appended if all of them can be read. -/
theorem insert_of_length (hn : t.columnNames.Nodup) {literals : List Literal}
    (hl : literals.length = t.columns.length) :
    t.insert literals = (readAll t.columns literals).map fun values =>
      { t with rows := t.rows ++ [⟨t.columnNames.zip values⟩] } := by
  have hnz : ((t.columnNames.zip (literals.map Literal.value)).map Prod.fst).Nodup := by
    rw [List.map_fst_zip (by simp [columnNames, hl])]
    exact hn
  have hz : ∀ p ∈ t.columns.zip literals,
      (t.columnNames.zip (literals.map Literal.value)).lookup p.1.name = some p.2.value := by
    intro p hp
    rw [NameMap.lookup_eq_some_iff_mem hnz, columnNames, List.zip_map]
    exact List.mem_map_of_mem hp
  have hf : ((t.columnNames.zip (literals.map Literal.value)).find? fun v =>
      v.1 ∉ t.columnNames) = none := by
    rw [List.find?_eq_none]
    intro v hv
    simpa using (List.of_mem_zip hv).1
  rw [insert, if_pos hl, addRow, makeRow, makeCells_of_lookup_zip hl hz, hf]
  cases readAll t.columns literals <;> rfl

/-- Inserting the literals for a row that fits appends that row. -/
theorem insert_literals (hn : t.columnNames.Nodup) (h : r.Fits t.columns) :
    t.insert r.literals = .ok { t with rows := t.rows ++ [r] } := by
  have hread : readAll t.columns r.literals = .ok r.values := readAll_literals h
  have hcells : t.columnNames.zip r.values = r.cells := by
    rw [columnNames, ← map_fst_of_holds h, Row.values, List.zip_map']
    exact List.map_id' _
  rw [insert_of_length hn h.length_literals, hread, Except.map, hcells]

theorem findColumn_of_first {before after : List Column} {c : Column}
    (hc : t.columns = before ++ c :: after)
    (hb : ∀ b ∈ before, Text.lower b.name ≠ Text.lower c.name) : t.findColumn c.name = .ok c := by
  have hf : (t.columns.find? fun b => Text.lower b.name == Text.lower c.name) = some c := by
    rw [hc, List.find?_append, List.find?_eq_none.2 (by simpa using hb), List.find?_cons]
    simp
  rw [findColumn, hf]

theorem project_columnNames (hn : t.columnNames.Nodup) (h : r.Fits t.columns) :
    project t.columnNames r = r.values := by
  have hk := map_fst_of_holds h
  rw [project, columnNames, ← hk, Row.values, List.map_map]
  refine List.map_congr_left fun cell hm => ?_
  rw [Function.comp_apply, (h.get?_eq_some_iff hn).2 hm]
  rfl

/-- A condition on a value of a row, for a column that is found by its name, selects the row. -/
theorem select_literal (ht : t.WellFormed) (hr : r ∈ t.rows) {before after : List Column}
    {c : Column} (hc : t.columns = before ++ c :: after)
    (hb : ∀ b ∈ before, Text.lower b.name ≠ Text.lower c.name) {v : Value}
    (hv : r.get? c.name = some v) :
    ∃ rows, t.select none (some ⟨c.name, v.literal⟩) = .ok (t.columnNames, rows) ∧
      r.values ∈ rows := by
  have hf := ht.rows r hr
  have hm : c ∈ t.columns := by simp [hc]
  obtain ⟨w, hw, hs⟩ := hf.get? ht.nodup hm
  obtain rfl : w = v := Option.some.inj (hw.symm.trans hv)
  have hsel : t.selector (some ⟨c.name, w.literal⟩) = .ok fun r => r.holds c.name w := by
    rw [selector, findColumn_of_first hc hb, ok_bind, Column.convert_literal hs]
    rfl
  refine ⟨(t.rows.filter fun r => r.holds c.name w).map (project t.columnNames), ?_, ?_⟩
  · rw [select, resolve, ok_bind, hsel]
    rfl
  · refine List.mem_map.2 ⟨r, List.mem_filter.2 ⟨hr, ?_⟩, project_columnNames ht.nodup hf⟩
    rw [Row.holds, hw]
    exact Value.equals_self (DataType.isFinite_of_stores hs)

end Table

end TableStore

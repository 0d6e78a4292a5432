import Mathlib.Data.List.DropRight
import TableStore.Database
import TableStore.Proofs.NameMap
import TableStore.Proofs.Outcome
import TableStore.Proofs.Rounding

/-!
# The data model

What holds of every database: proper names, distinct within their table or database, and rows that
have one cell for each column, of the column's own type. Building tables and rows keeps to it.
-/
namespace TableStore

/-! Names -/

namespace Text

theorem dropTrailingBlanks_eq_rdropWhile (cs : List Char) :
    dropTrailingBlanks cs = cs.rdropWhile isBlank := rfl

theorem skipBlanks_dropTrailingBlanks_skipBlanks (cs : List Char) :
    skipBlanks (dropTrailingBlanks (skipBlanks cs)) = dropTrailingBlanks (skipBlanks cs) := by
  rw [dropTrailingBlanks_eq_rdropWhile]
  have hp := List.rdropWhile_prefix isBlank (l := skipBlanks cs)
  cases hd : (skipBlanks cs).rdropWhile isBlank with
  | nil => rfl
  | cons c ds =>
    obtain ⟨es, he⟩ := hp
    rw [hd, List.cons_append] at he
    have hc := List.head?_dropWhile_not isBlank cs
    rw [← skipBlanks, ← he] at hc
    exact List.dropWhile_cons_of_neg (by simpa using hc)

theorem dropTrailingBlanks_dropTrailingBlanks (cs : List Char) :
    dropTrailingBlanks (dropTrailingBlanks cs) = dropTrailingBlanks cs :=
  List.rdropWhile_idempotent isBlank cs

theorem trim_trim (s : String) : trim (trim s) = trim s := by
  rw [trim, trim, String.toList_ofList, skipBlanks_dropTrailingBlanks_skipBlanks,
    dropTrailingBlanks_dropTrailingBlanks]

end Text

/-- A name that is kept as it is given: it is not empty and has no white space around it. -/
def IsProper (name : String) : Prop := name ≠ "" ∧ Text.trim name = name

instance (name : String) : Decidable (IsProper name) := inferInstanceAs (Decidable (_ ∧ _))

theorem properName_eq_ok {kind : Named} {name n : String} (h : properName kind name = .ok n) :
    n = Text.trim name ∧ IsProper n := by
  unfold properName at h
  dsimp only at h
  split at h
  · cases h
  · rename_i he
    cases h
    exact ⟨rfl, by simpa using he, Text.trim_trim name⟩

theorem properName_of_isProper {kind : Named} {name : String} (h : IsProper name) :
    properName kind name = .ok name := by
  unfold properName
  rw [h.2]
  exact if_neg (by simpa using h.1)

/-! Values -/

/-- The value is no number that is infinite or not a number. -/
def Value.isFinite : Value → Bool
  | float x => x.isFinite
  | _ => true

/-- The type that the value is of; nothing is of none. -/
def Value.type? : Value → Option DataType
  | null => none
  | boolean _ => some .boolean
  | integer _ => some .integer
  | float _ => some .double
  | string _ => some .string

namespace DataType

/-- A value that a column of the type holds: nothing, or a value of the type itself. -/
def stores : DataType → Value → Bool
  | _, .null => true
  | integer, .integer _ => true
  | double, .float x => x.isFinite
  | string, .string _ => true
  | boolean, .boolean _ => true
  | _, _ => false

theorem convert_eq_ok_iff {t : DataType} {v w : Value} :
    t.convert v = .ok w ↔ t.convert? v = some w := by
  unfold convert
  cases t.convert? v <;> simp

theorem convert_eq_error_iff {t : DataType} {v : Value} {e : Error} :
    t.convert v = .error e ↔
      t.convert? v = none ∧ e = .ofConversion (.unreadable v t none) := by
  unfold convert
  cases t.convert? v <;> simp [eq_comm]

/-- What a value is converted to is of the type itself. -/
theorem type?_of_convert? {t : DataType} {v w : Value} (hv : v ≠ .null)
    (h : t.convert? v = some w) : w.type? = some t := by
  cases v with
  | null => exact absurd rfl hv
  | boolean b => cases t <;> cases h <;> rfl
  | integer i => cases t <;> cases h <;> rfl
  | float x =>
    cases t with
    | integer =>
      obtain ⟨n, -, rfl⟩ := Option.map_eq_some_iff.1 h
      rfl
    | boolean => cases h
    | _ =>
      cases h
      rfl
  | string s =>
    cases t with
    | string =>
      cases h
      rfl
    | _ =>
      obtain ⟨a, -, rfl⟩ := Option.map_eq_some_iff.1 h
      rfl

theorem convert?_of_type? {t : DataType} {v : Value} (h : v.type? = some t) :
    t.convert? v = some v := by
  cases v <;> cases h <;> rfl

theorem admits_of_type? {t : DataType} {v : Value} (h : v.type? = some t) : t.admits v = true := by
  cases v <;> cases h <;> rfl

theorem isFinite_floatOfText? {s : String} {x : Binary64} (h : floatOfText? s = some x) :
    x.isFinite = true :=
  (Option.filter_eq_some_iff.1 h).2

theorem stores_of_convert? {t : DataType} {v w : Value} (hv : v.isFinite = true)
    (h : t.convert? v = some w) : t.stores w = true := by
  cases v with
  | null =>
    cases t <;> cases h <;> rfl
  | boolean b =>
    cases t <;> cases h <;> rfl
  | integer i =>
    cases t <;> cases h
    · rfl
    · exact Binary64.isFinite_ofInt i
    · rfl
  | float x =>
    cases t with
    | integer =>
      obtain ⟨i, -, rfl⟩ := Option.map_eq_some_iff.1 h
      rfl
    | double =>
      cases h
      exact hv
    | string =>
      cases h
      rfl
    | boolean => cases h
  | string s =>
    cases t with
    | integer =>
      obtain ⟨i, -, rfl⟩ := Option.map_eq_some_iff.1 h
      rfl
    | double =>
      obtain ⟨x, hx, rfl⟩ := Option.map_eq_some_iff.1 h
      exact isFinite_floatOfText? hx
    | string =>
      cases h
      rfl
    | boolean =>
      obtain ⟨b, -, rfl⟩ := Option.map_eq_some_iff.1 h
      rfl

theorem convert?_of_stores {t : DataType} {v : Value} (h : t.stores v = true) :
    t.convert? v = some v := by
  cases t <;> cases v <;> first | rfl | cases h

theorem admits_of_stores {t : DataType} {v : Value} (h : t.stores v = true) :
    t.admits v = true := by
  cases t <;> cases v <;> first | rfl | cases h

theorem isFinite_of_stores {t : DataType} {v : Value} (h : t.stores v = true) :
    v.isFinite = true := by
  cases t <;> cases v <;> first | rfl | exact h | cases h

end DataType

namespace Column

theorem isProper_make {name : String} {type : DataType} {c : Column}
    (h : Column.make name type = .ok c) : IsProper c.name := by
  obtain ⟨n, hn, h⟩ := bind_eq_ok_iff.1 h
  cases h
  exact (properName_eq_ok hn).2

theorem make_of_isProper {name : String} {type : DataType} (h : IsProper name) :
    Column.make name type = .ok ⟨name, type⟩ := by
  rw [Column.make, properName_of_isProper h]
  rfl

theorem stores_of_convert {c : Column} {v w : Value} (hv : v.isFinite = true)
    (h : c.convert v = .ok w) : c.type.stores w = true := by
  unfold Column.convert at h
  split at h
  · cases h
  · rename_i hw
    split at h
    · cases h
      exact DataType.stores_of_convert? hv hw
    · cases h

theorem convert_of_stores {c : Column} {v : Value} (h : c.type.stores v = true) :
    c.convert v = .ok v := by
  rw [Column.convert, DataType.convert?_of_stores h]
  exact if_pos (DataType.admits_of_stores h)

/-- The cell belongs to the column and holds a value that the column stores. -/
def Holds (c : Column) (cell : String × Value) : Prop := cell.1 = c.name ∧ c.type.stores cell.2 = true

end Column

/-! Rows -/

/-- The row has one cell for each column, in order. -/
def Row.Fits (columns : List Column) (r : Row) : Prop := List.Forall₂ Column.Holds columns r.cells

theorem map_fst_of_holds {columns : List Column} {cells : List (String × Value)}
    (h : List.Forall₂ Column.Holds columns cells) : cells.map Prod.fst = columns.map Column.name := by
  induction h with
  | nil => rfl
  | cons hc _ ih => rw [List.map_cons, List.map_cons, hc.1, ih]

theorem exists_holds_of_mem {columns : List Column} {cells : List (String × Value)}
    (h : List.Forall₂ Column.Holds columns cells) {cell : String × Value} (hm : cell ∈ cells) :
    ∃ c ∈ columns, c.Holds cell := by
  induction h with
  | nil => cases hm
  | @cons c _ _ _ hc _ ih =>
    rcases List.mem_cons.1 hm with rfl | hm
    · exact ⟨c, by simp, hc⟩
    · obtain ⟨d, hd, hh⟩ := ih hm
      exact ⟨d, by simp [hd], hh⟩

namespace Table

/-- Each cell has what the value under the name of its column is converted to. -/
theorem makeCells_eq_ok_iff {values : List (String × Value)} {columns : List Column}
    {cells : List (String × Value)} : makeCells values columns = .ok cells ↔
      List.Forall₂ (fun c cell => cell.1 = c.name ∧
        c.convert ((values.lookup c.name).getD .null) = .ok cell.2) columns cells := by
  induction columns generalizing cells with
  | nil => cases cells <;> simp [makeCells]
  | cons c cs ih =>
    rw [makeCells, bind_eq_ok_iff, List.forall₂_cons_left_iff]
    constructor
    · rintro ⟨w, hw, h⟩
      obtain ⟨cells', hcells, h⟩ := bind_eq_ok_iff.1 h
      cases h
      exact ⟨_, cells', ⟨rfl, hw⟩, ih.1 hcells, rfl⟩
    · rintro ⟨⟨_, w⟩, cells', ⟨rfl, hw⟩, hcells, rfl⟩
      exact ⟨w, hw, bind_eq_ok_iff.2 ⟨cells', ih.2 hcells, rfl⟩⟩

theorem holds_makeCells {values : List (String × Value)} (hv : ∀ v ∈ values, v.2.isFinite = true)
    {columns : List Column} {cells : List (String × Value)}
    (h : makeCells values columns = .ok cells) : List.Forall₂ Column.Holds columns cells := by
  refine (makeCells_eq_ok_iff.1 h).imp fun c cell hc => ⟨hc.1, Column.stores_of_convert ?_ hc.2⟩
  cases hl : values.lookup c.name with
  | none => rfl
  | some v =>
    obtain ⟨l₁, l₂, hl, -⟩ := List.lookup_eq_some_iff.1 hl
    exact hv (c.name, v) (by simp [hl])

theorem makeCells_of_lookup {values : List (String × Value)} {columns : List Column}
    {cells : List (String × Value)} (h : List.Forall₂ Column.Holds columns cells)
    (hl : ∀ cell ∈ cells, values.lookup cell.1 = some cell.2) :
    makeCells values columns = .ok cells := by
  induction h with
  | nil => rfl
  | @cons c cell cs cells hc _ ih =>
    obtain ⟨name, v⟩ := cell
    obtain ⟨hn, hs⟩ := hc
    have hv := hl (name, v) (by simp)
    rw [makeCells, ← hn, hv, Option.getD_some, Column.convert_of_stores hs,
      ih fun cell hm => hl cell (by simp [hm])]
    rfl

theorem makeRow_eq_ok {t : Table} {values : List (String × Value)} {r : Row}
    (hv : ∀ v ∈ values, v.2.isFinite = true) (h : t.makeRow values = .ok r) :
    r.Fits t.columns := by
  obtain ⟨cells, hcells, h⟩ := bind_eq_ok_iff.1 h
  split at h
  · cases h
  · cases h
    exact holds_makeCells hv hcells

/-- A row that fits is made of its own cells. -/
theorem makeRow_of_fits {t : Table} (hn : t.columnNames.Nodup) {r : Row} (h : r.Fits t.columns) :
    t.makeRow r.cells = .ok r := by
  have hk := map_fst_of_holds h
  have hc := makeCells_of_lookup h fun _ hm => (NameMap.lookup_eq_some_iff_mem (hk ▸ hn)).2 hm
  have hf : (r.cells.find? fun v => v.1 ∉ t.columnNames) = none := by
    rw [List.find?_eq_none]
    intro v hv
    have hm : v.1 ∈ t.columnNames := by
      rw [columnNames, ← hk]
      exact List.mem_map_of_mem hv
    simpa using hm
  rw [makeRow, hc, hf]
  rfl

theorem repeatedName?_eq_none_iff {seen : List String} {columns : List Column} :
    repeatedName? seen columns = none ↔
      (columns.map Column.name).Nodup ∧ ∀ c ∈ columns, c.name ∉ seen := by
  induction columns generalizing seen with
  | nil => simp [repeatedName?]
  | cons c cs ih =>
    rw [repeatedName?]
    split
    · rename_i hc
      simp [hc]
    · rename_i hc
      rw [ih, List.map_cons, List.nodup_cons]
      simp only [List.mem_append, List.mem_singleton, not_or, List.mem_map, not_exists, not_and,
        List.forall_mem_cons]
      constructor
      · rintro ⟨hn, hs⟩
        exact ⟨⟨fun d hd => (hs d hd).2, hn⟩, hc, fun d hd => (hs d hd).1⟩
      · rintro ⟨⟨hd, hn⟩, -, hs⟩
        exact ⟨hn, fun d hm => ⟨hs d hm, hd d hm⟩⟩

/-- The table is named properly, has columns with distinct proper names, and its rows fit them. -/
structure WellFormed (t : Table) : Prop where
  name : IsProper t.name
  columns_ne_nil : t.columns ≠ []
  columnNames : ∀ c ∈ t.columns, IsProper c.name
  nodup : t.columnNames.Nodup
  rows : ∀ r ∈ t.rows, r.Fits t.columns

theorem make_eq_ok {name : String} {columns : List Column} (hc : ∀ c ∈ columns, IsProper c.name)
    {t : Table} (h : make name columns = .ok t) : t.WellFormed ∧ t.columns = columns := by
  obtain ⟨n, hn, h⟩ := bind_eq_ok_iff.1 h
  dsimp only at h
  split at h
  · cases h
  · rename_i hne
    split at h
    · cases h
    · rename_i hr
      cases h
      refine ⟨⟨(properName_eq_ok hn).2, ?_, hc, (repeatedName?_eq_none_iff.1 hr).1, by simp⟩, rfl⟩
      simpa using hne

theorem make_of_isProper {name : String} {columns : List Column} (hn : IsProper name)
    (hne : columns ≠ []) (hd : (columns.map Column.name).Nodup) :
    make name columns = .ok ⟨name, columns, []⟩ := by
  have hr : repeatedName? [] columns = none := repeatedName?_eq_none_iff.2 ⟨hd, by simp⟩
  rw [make, properName_of_isProper hn]
  simp [bind, Except.bind, hr, hne]
  rfl

theorem WellFormed.withRows {t : Table} (ht : t.WellFormed) {rows : List Row}
    (h : ∀ r ∈ rows, r.Fits t.columns) : WellFormed { t with rows := rows } :=
  ⟨ht.name, ht.columns_ne_nil, ht.columnNames, ht.nodup, h⟩

end Table

namespace Database

/-- The database is named properly, and its tables are well formed and have distinct names. -/
structure WellFormed (d : Database) : Prop where
  name : IsProper d.name
  nodup : d.tableNames.Nodup
  tables : ∀ t ∈ d.tables, t.WellFormed

theorem make_eq_ok {name : String} {d : Database} (h : make name = .ok d) :
    d.WellFormed ∧ d.name = Text.trim name := by
  obtain ⟨n, hn, h⟩ := bind_eq_ok_iff.1 h
  obtain ⟨rfl, hp⟩ := properName_eq_ok hn
  cases h
  exact ⟨⟨hp, List.nodup_nil, by simp⟩, rfl⟩

theorem make_of_isProper {name : String} (h : IsProper name) : make name = .ok ⟨name, []⟩ := by
  rw [make, properName_of_isProper h]
  rfl

theorem table_eq_ok {d : Database} {name : String} {t : Table} (h : d.table name = .ok t) :
    t ∈ d.tables ∧ t.name = Text.trim name := by
  unfold table at h
  split at h
  · rename_i ht
    cases h
    exact ⟨List.mem_of_find?_eq_some ht, by simpa using List.find?_some ht⟩
  · cases h

/-- A new table goes behind the others. -/
theorem WellFormed.append {d : Database} (hd : d.WellFormed) {t : Table} (ht : t.WellFormed)
    (hn : t.name ∉ d.tableNames) : WellFormed { d with tables := d.tables ++ [t] } := by
  refine ⟨hd.name, ?_, List.forall_mem_append.2 ⟨hd.tables, by simpa using ht⟩⟩
  have hc : (d.tableNames.concat t.name).Nodup := hd.nodup.concat hn
  simpa [tableNames] using hc

theorem createTable_eq_ok {d d' : Database} (hd : d.WellFormed) {name : String}
    {columns : List Column} (hc : ∀ c ∈ columns, IsProper c.name)
    (h : d.createTable name columns = .ok d') : d'.WellFormed ∧ d'.name = d.name := by
  obtain ⟨t, ht, h⟩ := bind_eq_ok_iff.1 h
  dsimp only at h
  split at h
  · cases h
  · rename_i hn
    cases h
    exact ⟨hd.append (Table.make_eq_ok hc ht).1 hn, rfl⟩

theorem dropTable_eq_ok {d : Database} (hd : d.WellFormed) {name : String}
    {r : Database × Table} (h : d.dropTable name = .ok r) :
    r.1.WellFormed ∧ r.1.name = d.name := by
  obtain ⟨t, ht, h⟩ := bind_eq_ok_iff.1 h
  cases h
  have hs := List.eraseP_sublist (p := fun u : Table => u.name == t.name) (l := d.tables)
  exact ⟨⟨hd.name, hd.nodup.sublist (hs.map Table.name), fun u hu => hd.tables u (hs.subset hu)⟩, rfl⟩

theorem tableNames_replaceTable (d : Database) (t : Table) :
    (d.replaceTable t).tableNames = d.tableNames := by
  rw [tableNames, tableNames, replaceTable, List.map_map]
  refine List.map_congr_left fun u _ => ?_
  rw [Function.comp_apply]
  split
  · rename_i hu
    exact hu.symm
  · rfl

theorem WellFormed.replaceTable {d : Database} (hd : d.WellFormed) {t : Table}
    (ht : t.WellFormed) : (d.replaceTable t).WellFormed := by
  refine ⟨hd.name, ?_, fun u hu => ?_⟩
  · rw [tableNames_replaceTable]
    exact hd.nodup
  · obtain ⟨v, hv, rfl⟩ := List.mem_map.1 hu
    split
    · exact ht
    · exact hd.tables v hv

/-- A table that the database has takes its own place. -/
theorem replaceTable_self {d : Database} (hd : d.tableNames.Nodup) {t : Table}
    (ht : t ∈ d.tables) : d.replaceTable t = d := by
  have hm : (d.tables.map fun u => if u.name = t.name then t else u) = d.tables := by
    have hs : ∀ u ∈ d.tables, (if u.name = t.name then t else u) = u := by
      intro u hu
      split
      · rename_i hn
        exact (List.inj_on_of_nodup_map hd hu ht hn).symm
      · rfl
    rw [List.map_congr_left hs, List.map_id']
  rw [Database.replaceTable, hm]

end Database

end TableStore

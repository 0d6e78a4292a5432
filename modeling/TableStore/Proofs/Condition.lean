import TableStore.Proofs.NamedColumns

/-!
# Conditions

A condition is about the first column of its name, whatever the case of either, and about the value
that its literal is in this column. It selects the rows that have that value there, and what is
read, deleted and counted are these rows.
-/
namespace TableStore

open Sql

/-! Values -/

namespace Value

/-- The value is the number zero, of either sign. -/
def isZero (v : Value) : Bool := v == .float (.zero false) || v == .float (.zero true)

/-- The values are one and the same, or both are zero. -/
def Agrees (v w : Value) : Prop := v = w ∨ v.isZero = true ∧ w.isZero = true

instance (v w : Value) : Decidable (v.Agrees w) := inferInstanceAs (Decidable (_ ∨ _))

theorem isZero_float_iff {x : Binary64} : (float x).isZero = true ↔ x.code = 0 := by
  constructor
  · intro h
    simp only [isZero, Bool.or_eq_true, beq_iff_eq, float.injEq] at h
    rcases h with rfl | rfl <;> exact Binary64.code_ofCode _ (by decide)
  · intro h
    have hx := x.ofCode_code
    rw [h] at hx
    rw [← hx]
    cases x.isNegative <;> decide

/-- Values that are no NaN are equal if they are the same or zeros of different signs. -/
theorem equals_iff_agrees {v w : Value} (hv : v.isFinite = true) (hw : w.isFinite = true) :
    v.equals w = true ↔ v.Agrees w := by
  cases v with
  | float x =>
    cases w with
    | float y =>
      have hx := Binary64.isNaN_of_isFinite hv
      have hy := Binary64.isNaN_of_isFinite hw
      simp [equals, Binary64.equals, hx, hy, Agrees, isZero_float_iff]
    | _ => simp [equals, Agrees, isZero]
  | _ => simp [equals, Agrees, isZero]

end Value

/-! Rows -/

namespace Row

/-- The row has a value in the column that agrees with the one that is asked for, if one is. -/
def Meets (r : Row) : Option (Column × Value) → Prop
  | none => True
  | some (c, v) => ∃ cell ∈ r.cells, cell.1 = c.name ∧ cell.2.Agrees v

instance (r : Row) (target : Option (Column × Value)) : Decidable (r.Meets target) :=
  match target with
  | none => inferInstanceAs (Decidable True)
  | some (c, v) =>
    inferInstanceAs (Decidable (∃ cell ∈ r.cells, cell.1 = c.name ∧ cell.2.Agrees v))

/-- The values are those that the row has under the names, one for each in their order. -/
def Shows (names : List String) (r : Row) (values : List Value) : Prop :=
  List.Forall₂ (fun name v => (name, v) ∈ r.cells) names values

variable {columns : List Column} {r : Row}

theorem Fits.holds_iff_meets (h : r.Fits columns) (hn : (columns.map Column.name).Nodup)
    {c : Column} (hc : c ∈ columns) {v : Value} (hv : v.isFinite = true) :
    r.holds c.name v = true ↔ r.Meets (some (c, v)) := by
  obtain ⟨w, hw, hs⟩ := h.get? hn hc
  have hm := (h.get?_eq_some_iff hn).1 hw
  rw [holds, hw]
  dsimp only
  rw [Value.equals_iff_agrees (DataType.isFinite_of_stores hs) hv]
  constructor
  · intro ha
    exact ⟨(c.name, w), hm, rfl, ha⟩
  · rintro ⟨⟨name, u⟩, hu, rfl, ha⟩
    cases hw.symm.trans ((h.get?_eq_some_iff hn).2 hu)
    exact ha

/-- A row that fits has a value of its own under each column's name. -/
theorem Fits.shows_project (h : r.Fits columns) (hn : (columns.map Column.name).Nodup)
    {names : List String} (hnames : ∀ name ∈ names, name ∈ columns.map Column.name) :
    r.Shows names (Table.project names r) := by
  rw [Shows, Table.project, List.forall₂_map_right_iff, List.forall₂_same]
  intro name hm
  obtain ⟨c, hc, rfl⟩ := List.mem_map.1 (hnames name hm)
  obtain ⟨v, hv, -⟩ := h.get? hn hc
  rw [hv, Option.getD_some]
  exact (h.get?_eq_some_iff hn).1 hv

end Row

/-! Tables -/

namespace Table

variable {t : Table} {name : String} {c : Column} {condition : Option Condition}
  {target : Option (Column × Value)}

/-- The column is the first whose name is the given one when case is ignored. -/
def Resolves (t : Table) (name : String) (c : Column) : Prop :=
  ∃ before after, t.columns = before ++ c :: after ∧ Text.lower c.name = Text.lower name ∧
    ∀ b ∈ before, Text.lower b.name ≠ Text.lower name

theorem findColumn_eq_ok_iff : t.findColumn name = .ok c ↔ t.Resolves name c := by
  have hf : t.findColumn name = .ok c ↔
      (t.columns.find? fun c => Text.lower c.name == Text.lower name) = some c := by
    unfold findColumn
    cases t.columns.find? fun c => Text.lower c.name == Text.lower name <;> simp
  rw [hf, List.find?_eq_some_iff_append, Resolves]
  simp only [beq_iff_eq, Bool.not_eq_true', beq_eq_false_iff_ne]
  constructor
  · rintro ⟨hc, before, after, ht, hb⟩
    exact ⟨before, after, ht, hc, hb⟩
  · rintro ⟨before, after, ht, hc, hb⟩
    exact ⟨hc, before, after, ht, hb⟩

/-- What a condition asks for: nothing if there is none, and else that its column has its literal,
as the column reads it. -/
inductive Means (t : Table) : Option Condition → Option (Column × Value) → Prop
  | all : Means t none none
  | value {w : Condition} {c : Column} {v : Value} (hc : t.Resolves w.column c)
    (hv : c.convert w.value.value = .ok v) : Means t (some w) (some (c, v))

/-- A condition that means something selects the rows that meet it. -/
theorem Means.selector (h : t.Means condition target) (ht : t.WellFormed) :
    ∃ selects, t.selector condition = .ok selects ∧
      ∀ r ∈ t.rows, selects r = decide (r.Meets target) := by
  cases h with
  | all => exact ⟨fun _ => true, rfl, fun r _ => (decide_eq_true (p := r.Meets none) trivial).symm⟩
  | @value w c v hc hv =>
    have hf := findColumn_eq_ok_iff.2 hc
    refine ⟨fun r => r.holds c.name v, ?_, fun r hr => ?_⟩
    · rw [Table.selector, hf, ok_bind, hv]
      rfl
    · have hs := DataType.isFinite_of_stores (Column.stores_of_convert w.value.isFinite_value hv)
      rw [Bool.eq_iff_iff, decide_eq_true_iff]
      exact (ht.rows r hr).holds_iff_meets ht.nodup (findColumn_eq_ok hf) hs

theorem countP_of_meets {selects : Row → Bool}
    (h : ∀ r ∈ t.rows, selects r = decide (r.Meets target)) :
    t.rows.countP selects = (t.rows.filter fun r => r.Meets target).length := by
  rw [List.countP_eq_length_filter, List.filter_congr h]

/-- A condition that can be used to select means something. -/
theorem exists_means {selects : Row → Bool} (h : t.selector condition = .ok selects) :
    ∃ target, t.Means condition target := by
  cases condition with
  | none => exact ⟨none, .all⟩
  | some w =>
    obtain ⟨c, hc, h⟩ := bind_eq_ok_iff.1 h
    obtain ⟨v, hv, -⟩ := bind_eq_ok_iff.1 h
    exact ⟨some (c, v), .value (findColumn_eq_ok_iff.1 hc) hv⟩

theorem exists_selector_error (h : ∀ target, ¬t.Means condition target) :
    ∃ e, t.selector condition = .error e := by
  cases hs : t.selector condition with
  | error e => exact ⟨e, rfl⟩
  | ok selects =>
    obtain ⟨target, hm⟩ := exists_means hs
    exact absurd hm (h target)

/-- The columns that a query shows: those it names, or all. -/
def Lists (t : Table) : Option (List String) → List String → Prop
  | none, names => names = t.columnNames
  | some asked, names =>
    List.Forall₂ (fun n name => ∃ c, t.Resolves n c ∧ c.name = name) asked names

theorem Lists.resolve {columns : Option (List String)} {names : List String}
    (h : t.Lists columns names) : t.resolve columns = .ok names := by
  cases columns with
  | none =>
    cases h
    rfl
  | some asked =>
    refine mapM_eq_ok_iff.2 (h.imp fun n name hn => ?_)
    obtain ⟨c, hc, rfl⟩ := hn
    rw [findColumn_eq_ok_iff.2 hc]
    rfl

theorem mem_columnNames_of_resolve {columns : Option (List String)} {names : List String}
    (h : t.resolve columns = .ok names) : ∀ name ∈ names, name ∈ t.columnNames := by
  cases columns with
  | none =>
    cases h
    exact fun _ hm => hm
  | some asked =>
    refine forall_mem_of_mapM (fun n name hn => ?_) h
    obtain ⟨c, hc, hn⟩ := bind_eq_ok_iff.1 hn
    cases hn
    exact List.mem_map_of_mem (findColumn_eq_ok hc)

theorem Lists.mem_columnNames {columns : Option (List String)} {names : List String}
    (h : t.Lists columns names) : ∀ name ∈ names, name ∈ t.columnNames :=
  mem_columnNames_of_resolve h.resolve

/-- A query shows the rows that meet its condition, in table order. -/
theorem Means.select (h : t.Means condition target) (ht : t.WellFormed)
    {columns : Option (List String)} {names : List String} (hl : t.Lists columns names) :
    ∃ shown, t.select columns condition = .ok (names, shown) ∧
      List.Forall₂ (Row.Shows names) (t.rows.filter fun r => r.Meets target) shown := by
  obtain ⟨selects, hs, hr⟩ := h.selector ht
  refine ⟨(t.rows.filter selects).map (project names), ?_, ?_⟩
  · rw [Table.select, hl.resolve, ok_bind, hs]
    rfl
  · rw [List.filter_congr hr, List.forall₂_map_right_iff, List.forall₂_same]
    intro r hm
    exact (ht.rows r (List.mem_of_mem_filter hm)).shows_project ht.nodup hl.mem_columnNames

/-- The table without the rows that meet a condition, and their number. -/
theorem Means.delete (h : t.Means condition target) (ht : t.WellFormed) :
    t.delete condition = .ok ({ t with rows := t.rows.filter fun r => ¬r.Meets target },
      (t.rows.filter fun r => r.Meets target).length) := by
  obtain ⟨selects, hs, hr⟩ := h.selector ht
  have hkept : (t.rows.filter fun r => !selects r) = t.rows.filter fun r => ¬r.Meets target :=
    List.filter_congr fun r hm => by rw [hr r hm, decide_not]
  rw [Table.delete, hs, ok_bind, deleteRows, hkept, countP_of_meets hr]
  rfl

/-! What is shown and what a condition means depends on nothing but the columns. -/

theorem Lists.withRows {columns : Option (List String)} {names : List String}
    (h : t.Lists columns names) (rows : List Row) :
    { t with rows := rows }.Lists columns names := by
  cases columns with
  | none => exact h
  | some asked => exact h

theorem Means.withRows (h : t.Means condition target) (rows : List Row) :
    { t with rows := rows }.Means condition target := by
  cases h with
  | all => exact .all
  | value hc hv => exact .value hc hv

end Table

end TableStore

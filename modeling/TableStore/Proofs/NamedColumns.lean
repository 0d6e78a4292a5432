import Mathlib.Data.List.Forall2
import TableStore.Proofs.Literals
import TableStore.Proofs.Parsing
import TableStore.Proofs.Run

/-!
# Columns by name

A name stands for the first column that has it, whatever the case of either. So every column is
found by its own name if and only if no two differ in nothing but case, and then all columns by
their names are the same as all columns. A statement can give the names only if they are words; a
document may have others.
-/
namespace TableStore

open Sql

namespace Table

variable {t : Table} {name : String} {c : Column}

theorem lower_of_findColumn (h : t.findColumn name = .ok c) :
    Text.lower c.name = Text.lower name := by
  unfold findColumn at h
  split at h
  · rename_i hf
    cases h
    simpa using List.find?_some hf
  · cases h

theorem findColumn_congr {other : String} (h : Text.lower name = Text.lower other)
    (hc : t.findColumn name = .ok c) : t.findColumn other = .ok c := by
  unfold findColumn at hc ⊢
  rw [← h]
  split at hc
  · exact hc
  · cases hc

/-- There is a column for the name of a column. -/
theorem exists_findColumn (h : name ∈ t.columnNames) : ∃ c, t.findColumn name = .ok c := by
  obtain ⟨c, hc, rfl⟩ := List.mem_map.1 h
  unfold findColumn
  split
  · rename_i c' _
    exact ⟨c', rfl⟩
  · rename_i hf
    have := List.find?_eq_none.1 hf c hc
    simp at this

/-- A column is found by its own name if none has the same name in another case. -/
theorem name_of_findColumn (hl : (t.columnNames.map Text.lower).Nodup) (h : name ∈ t.columnNames)
    (hc : t.findColumn name = .ok c) : c.name = name :=
  List.inj_on_of_nodup_map hl (List.mem_map_of_mem (findColumn_eq_ok hc)) h (lower_of_findColumn hc)

/-- Each name stands for the column in the other list. -/
def Names (t : Table) : List String → List String → Prop :=
  List.Forall₂ fun name column => ∃ c, t.findColumn name = .ok c ∧ c.name = column

/-- The names of all columns stand for some columns each. -/
theorem exists_resolve (t : Table) :
    ∃ columns, t.resolve (some t.columnNames) = .ok columns ∧ t.Names t.columnNames columns := by
  obtain ⟨columns, h⟩ : ∃ columns, t.resolve (some t.columnNames) = .ok columns := by
    refine exists_mapM fun name hn => ?_
    obtain ⟨c, hc⟩ := exists_findColumn hn
    exact ⟨c.name, by rw [hc]; rfl⟩
  refine ⟨columns, h, (mapM_eq_ok_iff.1 h).imp fun name column h => ?_⟩
  obtain ⟨c, hc, h⟩ := bind_eq_ok_iff.1 h
  cases h
  exact ⟨c, hc, rfl⟩

theorem Names.eq_columnNames_iff (hn : t.columnNames.Nodup) {columns : List String}
    (h : t.Names t.columnNames columns) :
    columns = t.columnNames ↔ (t.columnNames.map Text.lower).Nodup := by
  constructor
  · rintro rfl
    have hself := List.forall₂_same.1 h
    refine hn.map_on fun a ha b hb hab => ?_
    obtain ⟨c, hc, rfl⟩ := hself a ha
    obtain ⟨d, hd, rfl⟩ := hself b hb
    cases (findColumn_congr hab hc).symm.trans hd
    rfl
  · intro hl
    have heq : List.Forall₂ (· = ·) t.columnNames columns := by
      refine ((List.forall₂_and_left _ _).2 ⟨fun _ hm => hm, h⟩).imp fun name column h => ?_
      obtain ⟨hm, c, hc, rfl⟩ := h
      exact (name_of_findColumn hl hm hc).symm
    rw [List.forall₂_eq_eq_eq] at heq
    exact heq.symm

/-- All columns by their names are the same as all columns if none has the name of another in
another case. -/
theorem select_columnNames (hn : t.columnNames.Nodup) (hl : (t.columnNames.map Text.lower).Nodup)
    (condition : Option Condition) :
    t.select (some t.columnNames) condition = t.select none condition := by
  obtain ⟨columns, hr, hc⟩ := t.exists_resolve
  rw [(hc.eq_columnNames_iff hn).2 hl] at hr
  rw [select, hr, select, resolve]

/-- A condition is at fault for both ways to select all columns, or for none. -/
theorem select_cases (ht : t.WellFormed) {columns : List String}
    (hr : t.resolve (some t.columnNames) = .ok columns) (condition : Option Condition) :
    (∃ e, t.select (some t.columnNames) condition = .error e ∧ t.select none condition = .error e) ∨
    ∃ rows : List Row, rows.Sublist t.rows ∧
      t.select (some t.columnNames) condition = .ok (columns, rows.map (project columns)) ∧
      t.select none condition = .ok (t.columnNames, rows.map Row.values) := by
  rw [select, hr, select, resolve, ok_bind, ok_bind]
  cases t.selector condition with
  | error e => exact .inl ⟨e, rfl, rfl⟩
  | ok selects =>
    refine .inr ⟨t.rows.filter selects, List.filter_sublist, rfl, ?_⟩
    have hp : (t.rows.filter selects).map (project t.columnNames) =
        (t.rows.filter selects).map Row.values :=
      List.map_congr_left fun r hm =>
        project_columnNames ht.nodup (ht.rows r (List.mem_of_mem_filter hm))
    rw [← hp]
    rfl

end Table

namespace Sql.Statement

variable {name star : String} {columns : List String} {condition : Option Condition}

theorem isPrintable_select_some_iff : (select name (some columns) condition).IsPrintable ↔
    columns ≠ [] ∧ (∀ column ∈ columns, IsWord column.toList) ∧
      (select name none condition).IsPrintable := by
  have hnamed : ArePrintable (select name (some columns) condition).lexemes ↔
      (∀ column ∈ columns, IsWord column.toList) ∧ IsWord name.toList ∧
        ArePrintable (Condition.lexemes condition) := by
    simp [lexemes, body, selectionLexemes]
  have hstar : ArePrintable (select name none condition).lexemes ↔ IsWord name.toList ∧
      ArePrintable (Condition.lexemes condition) := by
    simp [lexemes, body, selectionLexemes]
  constructor
  · intro h
    obtain ⟨hcolumns, hrest⟩ := hnamed.1 h.lexemes
    exact ⟨h.items, hcolumns, hstar.2 hrest, trivial⟩
  · rintro ⟨hne, hcolumns, h⟩
    exact ⟨hnamed.2 ⟨hcolumns, hstar.1 h.lexemes⟩, hne⟩

/-- A query for all columns can name them instead if their names are words. -/
theorem exists_parse_select_some_iff (hne : columns ≠ [])
    (hstar : parse star = .ok (select name none condition)) :
    (∃ named, parse named = .ok (select name (some columns) condition)) ↔
      ∀ column ∈ columns, IsWord column.toList := by
  rw [exists_parse_iff, isPrintable_select_some_iff]
  exact ⟨fun h => h.2.1, fun h => ⟨hne, h, isPrintable_of_parse hstar⟩⟩

end Sql.Statement

namespace Session

/-- A query changes nothing and is answered from its table. -/
theorem execute_select {s : Session} {d : Database} (hd : s.catalog.current = .ok d) {name : String}
    {t : Table} (ht : d.table name = .ok t) {text : String} {columns : Option (List String)}
    {condition : Option Condition}
    (hp : Statement.parse text = .ok (.select name columns condition)) :
    s.execute text = (s, (t.select columns condition).map fun r => .selected r.1 r.2) := by
  rw [execute, hp]
  dsimp only [change, Statement.run]
  rw [hd, ok_bind, ht, ok_bind]
  cases t.select columns condition <;> rfl

end Session

namespace Connection

/-- A table whose two columns differ in nothing but case, and one whose columns differ in more. -/
def casesSteps : List (Faults × Action) :=
  [({}, .reopen), ({}, .session (.execute "CREATE DATABASE d;")),
    ({}, .session (.execute "USE d;")),
    ({}, .session (.execute "CREATE TABLE t (a INTEGER, A INTEGER);")),
    ({}, .session (.execute "INSERT INTO t VALUES (1, 2);")),
    ({}, .session (.execute "CREATE TABLE u (a INTEGER, B STRING);")),
    ({}, .session (.execute "INSERT INTO u VALUES (1, x);"))]

/-- The names of the columns of a table in the selected database. -/
def columnsOf (s : Session) (table : String) : Except Error (List String) :=
  (s.catalog.current.bind fun d => d.table table).map Table.columnNames

theorem answers_casesSteps :
    ((closed { store := .memory .empty }).run casesSteps).session?.map (fun s =>
      ((columnsOf s "t").toOption, (columnsOf s "u").toOption,
        (s.execute "SELECT a, A FROM t;").2.toOption,
        (s.execute "SELECT * FROM t;").2.toOption,
        (s.execute "SELECT * FROM u WHERE b = x;").2.toOption)) =
      some (some ["a", "A"], some ["a", "B"],
        some (.selected ["a", "a"] [[.integer 1, .integer 1]]),
        some (.selected ["a", "A"] [[.integer 1, .integer 2]]),
        some (.selected ["a", "B"] [[.integer 1, .string "x"]])) := by
  decide +kernel

theorem run_casesSteps :
    ∃ s, (closed { store := .memory .empty }).run casesSteps = .opened s ∧
      columnsOf s "t" = .ok ["a", "A"] ∧ columnsOf s "u" = .ok ["a", "B"] ∧
      (s.execute "SELECT a, A FROM t;").2 =
        .ok (.selected ["a", "a"] [[.integer 1, .integer 1]]) ∧
      (s.execute "SELECT * FROM t;").2 = .ok (.selected ["a", "A"] [[.integer 1, .integer 2]]) ∧
      (s.execute "SELECT * FROM u WHERE b = x;").2 =
        .ok (.selected ["a", "B"] [[.integer 1, .string "x"]]) := by
  obtain ⟨s, hs, ha⟩ := opened_of_session? answers_casesSteps
  simp only [Prod.mk.injEq, toOption_eq_some_iff] at ha
  exact ⟨s, hs, ha⟩

theorem columnsOf_eq_ok {s : Session} {table : String} {names : List String}
    (h : columnsOf s table = .ok names) :
    ∃ d t, s.catalog.current = .ok d ∧ d.table table = .ok t ∧ t.columnNames = names := by
  obtain ⟨t, ht, rfl⟩ := map_eq_ok_iff.1 h
  obtain ⟨d, hd, ht⟩ := bind_eq_ok_iff.1 ht
  exact ⟨d, t, hd, ht, rfl⟩

/-- A document with a column whose name is no word. -/
def unwritable : Storage :=
  { store := .memory (.ofList [("d", "[\"d\",\x7b\"u\":[\"u\",[[\"x,y\",\"INTEGER\"]]]\x7d]")]) }

def unwritableSteps : List (Faults × Action) :=
  [({}, .reopen), ({}, .session (.execute "USE d;"))]

theorem answers_unwritableSteps :
    ((closed unwritable).run unwritableSteps).session?.map (fun s =>
      (columnsOf s "u", (s.execute "SELECT x,y FROM u;").2, (s.execute "SELECT * FROM u;").2)) =
      some (.ok ["x,y"], .error (.ofValidation (.noSuchColumn "x" "u")),
        .ok (.selected ["x,y"] [])) := by
  decide +kernel

end Connection

end TableStore

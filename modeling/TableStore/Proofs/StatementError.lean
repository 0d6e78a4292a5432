import TableStore.Proofs.Outcome
import TableStore.Sql.Execution

/-!
# Errors of statements

The errors with which a statement stops before it changes anything. They are faults of the
statement: none comes from the storage or from a document, and none says that a row lacks a column.
-/
namespace TableStore

open Sql

/-- What is wrong is the statement, judged against the catalog. -/
def Error.IsOfStatement : Error → Prop
  | ofSyntax _ => True
  | ofValidation (.notInRow _) => False
  | ofValidation _ => True
  | ofConversion _ => True
  | ofStorage _ => False
  | noDocument => False

/-- The only errors are faults of the statement. -/
def Refuses {α : Type} (x : Except Error α) : Prop := ∀ e, x = .error e → e.IsOfStatement

namespace Refuses

variable {α β : Type}

theorem ok (a : α) : Refuses (.ok a) := by
  intro e h
  cases h

theorem pure (a : α) : Refuses (Pure.pure a) := ok a

theorem error {e : Error} (h : e.IsOfStatement) : Refuses (α := α) (.error e) := by
  intro e' h'
  cases h'
  exact h

theorem bind {x : Except Error α} {f : α → Except Error β} (hx : Refuses x)
    (hf : ∀ a, Refuses (f a)) : Refuses (x >>= f) := by
  intro e h
  rcases bind_eq_error_iff.1 h with h | ⟨a, -, h⟩
  · exact hx e h
  · exact hf a e h

theorem map {x : Except Error α} {f : α → β} (hx : Refuses x) : Refuses (x.map f) :=
  fun e h => hx e (map_eq_error_iff.1 h)

theorem mapM {f : α → Except Error β} (hf : ∀ a, Refuses (f a)) (xs : List α) :
    Refuses (xs.mapM f) := by
  intro e h
  obtain ⟨x, -, hx⟩ := mapM_eq_error h
  exact hf x e hx

/-- A check in front of the rest. -/
theorem guard {p : Prop} [Decidable p] {e : Error} (h : e.IsOfStatement) {x : Except Error α}
    (hx : Refuses x) : Refuses (if p then throw e else x) := by
  split
  · exact error h
  · exact hx

end Refuses

theorem refuses_properName (kind : Named) (name : String) : Refuses (properName kind name) := by
  unfold properName
  dsimp only
  split
  · exact .error trivial
  · exact .ok _

namespace Column

theorem refuses_make (name : String) (type : DataType) : Refuses (Column.make name type) :=
  .bind (refuses_properName .column name) fun _ => .pure _

theorem refuses_convert (c : Column) (v : Value) : Refuses (c.convert v) := by
  unfold Column.convert
  split
  · exact .error trivial
  · split
    · exact .ok _
    · exact .error trivial

end Column

namespace Table

theorem refuses_make (name : String) (columns : List Column) : Refuses (make name columns) := by
  refine .bind (refuses_properName .table name) fun n => ?_
  refine .guard (by trivial) ?_
  split
  · exact .error trivial
  · exact .pure _

theorem refuses_findColumn (t : Table) (name : String) : Refuses (t.findColumn name) := by
  unfold findColumn
  split
  · exact .ok _
  · exact .error trivial

theorem refuses_makeCells (values : List (String × Value)) (columns : List Column) :
    Refuses (makeCells values columns) := by
  induction columns with
  | nil => exact .ok _
  | cons c cs ih => exact .bind (c.refuses_convert _) fun w => .bind ih fun cells => .pure _

theorem refuses_insert (t : Table) (values : List Literal) : Refuses (t.insert values) := by
  unfold insert
  split
  · refine .bind (.bind (refuses_makeCells _ _) fun cells => ?_) fun r => .pure _
    split
    · exact .error trivial
    · exact .pure _
  · exact .error trivial

theorem refuses_selector (t : Table) (condition : Option Condition) :
    Refuses (t.selector condition) := by
  cases condition with
  | none => exact .ok _
  | some w =>
    refine .bind (t.refuses_findColumn _) fun c => ?_
    exact .bind (c.refuses_convert _) fun v => .pure _

theorem refuses_select (t : Table) (columns : Option (List String)) (condition : Option Condition) :
    Refuses (t.select columns condition) := by
  refine .bind ?_ fun names => .bind (t.refuses_selector condition) fun selects => .pure _
  cases columns with
  | none => exact .ok _
  | some names => exact .mapM (fun n => .bind (t.refuses_findColumn n) fun c => .pure _) names

theorem refuses_resolveAssignments (t : Table) (known : List (Column × Value))
    (assignments : List Assignment) : Refuses (t.resolveAssignments known assignments) := by
  induction assignments generalizing known with
  | nil => exact .ok _
  | cons a as ih =>
    refine .bind (t.refuses_findColumn _) fun c => ?_
    refine .guard (by trivial) ?_
    exact .bind (c.refuses_convert _) fun v => ih _

theorem refuses_update (t : Table) (assignments : List Assignment) (condition : Option Condition) :
    Refuses (t.update assignments condition) := by
  refine .bind (t.refuses_resolveAssignments [] assignments) fun values => ?_
  exact .bind (t.refuses_selector condition) fun selects => .pure _

theorem refuses_delete (t : Table) (condition : Option Condition) :
    Refuses (t.delete condition) :=
  .bind (t.refuses_selector condition) fun _ => .pure _

end Table

theorem Database.refuses_table (d : Database) (name : String) : Refuses (d.table name) := by
  unfold Database.table
  split
  · exact .ok _
  · exact .error trivial

namespace Catalog

theorem refuses_database (c : Catalog) (name : String) : Refuses (c.database name) := by
  unfold database
  split
  · exact .ok _
  · exact .error trivial

theorem refuses_current (c : Catalog) : Refuses c.current := by
  unfold current
  split
  · exact .ok _
  · exact .error trivial

theorem refuses_createDatabase (c : Catalog) (name : String) : Refuses (c.createDatabase name) := by
  refine .bind (.bind (refuses_properName .database name) fun n => .pure _) fun d => ?_
  exact .guard (by trivial) (.guard (by trivial) (.pure _))

theorem refuses_dropDatabase (c : Catalog) (name : String) : Refuses (c.dropDatabase name) :=
  .bind (c.refuses_database (Text.trim name)) fun _ => .pure _

theorem refuses_useDatabase (c : Catalog) (name : String) : Refuses (c.useDatabase name) :=
  .bind (c.refuses_database (Text.trim name)) fun _ => .pure _

theorem refuses_createTable (c : Catalog) (name : String) (columns : List Column) :
    Refuses (c.createTable name columns) := by
  refine .bind c.refuses_current fun d => .bind ?_ fun d' => .pure _
  exact .bind (Table.refuses_make name columns) fun t => .guard (by trivial) (.pure _)

theorem refuses_dropTable (c : Catalog) (name : String) : Refuses (c.dropTable name) := by
  refine .bind c.refuses_current fun d => .bind ?_ fun r => .pure _
  exact .bind (d.refuses_table name) fun t => .pure _

end Catalog

namespace Sql.Statement

theorem refuses_changeTable (c : Catalog) (name : String)
    {act : Table → Except Error (Table × Except Error Nat)} (ha : ∀ t, Refuses (act t))
    (reply : Table → Nat → Reply) : Refuses (changeTable c name act reply) := by
  refine .bind c.refuses_current fun d => .bind (d.refuses_table name) fun t => ?_
  refine .bind (ha t) fun r => ?_
  dsimp only
  split
  · exact .pure _
  · exact .pure _

/-- A statement that does not run is at fault itself. -/
theorem refuses_run (c : Catalog) (statement : Statement) : Refuses (statement.run c) := by
  cases statement with
  | createDatabase name =>
    rw [run]
    exact .bind (c.refuses_createDatabase name) fun ch => .pure _
  | dropDatabase name =>
    rw [run]
    exact .bind (c.refuses_dropDatabase name) fun ch => .pure _
  | useDatabase name =>
    rw [run]
    exact .bind (c.refuses_useDatabase name) fun ch => .pure _
  | showDatabases =>
    rw [run]
    exact .ok _
  | createTable name specs =>
    rw [run]
    have hs : ∀ s : ColumnSpec, Refuses (Column.make s.name s.type) :=
      fun s => Column.refuses_make s.name s.type
    refine .bind (.mapM hs specs) fun columns => ?_
    exact .bind (c.refuses_createTable name columns) fun ch => .pure _
  | dropTable name =>
    rw [run]
    exact .bind (c.refuses_dropTable name) fun ch => .pure _
  | showTables =>
    rw [run]
    exact .bind c.refuses_current fun d => .pure _
  | insert table values =>
    rw [run]
    exact refuses_changeTable c table (fun t => .map (t.refuses_insert values)) _
  | select table columns condition =>
    rw [run]
    refine .bind c.refuses_current fun d => .bind (d.refuses_table table) fun t => ?_
    exact .bind (t.refuses_select columns condition) fun r => .pure _
  | update table assignments condition =>
    rw [run]
    exact refuses_changeTable c table (fun t => t.refuses_update assignments condition) _
  | delete table condition =>
    rw [run]
    exact refuses_changeTable c table (fun t => .map (t.refuses_delete condition)) _
  | help =>
    rw [run]
    exact .ok _

end Sql.Statement

end TableStore

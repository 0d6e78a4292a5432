import TableStore.Proofs.NamedColumns
import TableStore.Proofs.Performing

/-!
# Insertions

A row is inserted if there is one literal for each column, and each column can read its own. The new
row has what the columns read, in their order, and comes after all other rows. Else the first column
that cannot read its literal is reported.
-/
namespace TableStore

open Sql

theorem Column.convert_eq_error {c : Column} {v : Value} (h : ∀ w, c.convert v ≠ .ok w) :
    c.convert v = .error (.ofConversion (.unreadable v c.type (some c.name))) := by
  cases hc : c.convert v with
  | ok w => exact absurd hc (h w)
  | error e => rw [(convert_eq_error_iff.1 hc).2]

namespace Table

variable {t t' : Table} {literals : List Literal} {values : List Value}

/-- There is one literal for each column, and the columns read them as the values. -/
structure Reads (t : Table) (literals : List Literal) (values : List Value) : Prop where
  length : literals.length = t.columns.length
  reads : List.Forall₂ (fun p v => p.1.convert p.2.value = .ok v) (t.columns.zip literals) values

theorem Reads.length_values (h : t.Reads literals values) : values.length = t.columns.length := by
  rw [← h.reads.length_eq, List.length_zip, h.length, Nat.min_self]

theorem exists_reads_iff : (∃ values, t.Reads literals values) ↔
    literals.length = t.columns.length ∧
      ∀ p ∈ t.columns.zip literals, ∃ v, p.1.convert p.2.value = .ok v := by
  constructor
  · rintro ⟨values, h⟩
    exact ⟨h.length, exists_of_mapM (mapM_eq_ok_iff.2 h.reads)⟩
  · rintro ⟨hl, hr⟩
    obtain ⟨values, hv⟩ := exists_mapM hr
    exact ⟨values, hl, mapM_eq_ok_iff.1 hv⟩

theorem insert_eq_ok_iff (hn : t.columnNames.Nodup) : t.insert literals = .ok t' ↔
    ∃ values, t.Reads literals values ∧
      t' = { t with rows := t.rows ++ [⟨t.columnNames.zip values⟩] } := by
  by_cases hl : literals.length = t.columns.length
  · rw [insert_of_length hn hl, map_eq_ok_iff]
    refine exists_congr fun values => ?_
    rw [readAll, mapM_eq_ok_iff]
    constructor
    · rintro ⟨hr, ht⟩
      exact ⟨⟨hl, hr⟩, ht.symm⟩
    · rintro ⟨hr, ht⟩
      exact ⟨hr.reads, ht.symm⟩
  · rw [insert, if_neg hl]
    constructor
    · rintro ⟨⟩
    · rintro ⟨values, hr, -⟩
      exact absurd hr.length hl

/-- The first column that cannot read its literal is reported. -/
theorem insert_eq_error_of_first (hn : t.columnNames.Nodup)
    (hl : literals.length = t.columns.length) {before after : List (Column × Literal)}
    {c : Column} {l : Literal} (hz : t.columns.zip literals = before ++ (c, l) :: after)
    (hb : ∀ p ∈ before, ∃ v, p.1.convert p.2.value = .ok v)
    (hc : ∀ v, c.convert l.value ≠ .ok v) :
    t.insert literals = .error (.ofConversion (.unreadable l.value c.type (some c.name))) := by
  have he := Column.convert_eq_error hc
  rw [insert_of_length hn hl, readAll, hz, mapM_eq_error_of_first hb he]
  rfl

/-- A query for everything shows the values of all rows. -/
theorem select_all (ht : t.WellFormed) :
    t.select none none = .ok (t.columnNames, t.rows.map Row.values) := by
  have hp : t.rows.map (project t.columnNames) = t.rows.map Row.values :=
    List.map_congr_left fun r hr => project_columnNames ht.nodup (ht.rows r hr)
  rw [← hp, select, resolve, ok_bind, selector, ok_bind, List.filter_eq_self.2 fun _ _ => rfl]
  rfl

end Table

namespace Session

variable {s : Session} {d : Database} {t : Table} {text : String}

theorem execute_select_all (hc : s.catalog.WellFormed) (hd : s.catalog.current = .ok d)
    (ht : t ∈ d.tables) (hp : Statement.parse text = .ok (.select t.name none none)) :
    s.execute text = (s, .ok (.selected t.columnNames (t.rows.map Row.values))) := by
  have hw := hc.current hd
  rw [execute_select hd (hw.table ht) hp, Table.select_all (hw.tables t ht)]
  rfl

end Session

namespace Connection

/-- In every state that a run comes to, for every table of the selected database: an insertion is
carried out in memory if and only if it has one literal for each column and every column can read
its own. Then a query for everything shows the rows as before, and after them the row of what the
columns have read, in column order. A wrong number of literals is a fault of syntax; and of the
columns that cannot read their literals the first is reported. -/
theorem insert_exact {storage : Storage} {s : Session} (hs : Reaches storage s) {d : Database}
    (hd : s.catalog.current = .ok d) {t : Table} (ht : t ∈ d.tables) {literals : List Literal}
    {insertion query : String} (hi : Statement.parse insertion = .ok (.insert t.name literals))
    (hq : Statement.parse query = .ok (.select t.name none none)) :
    ((∃ c reply, s.Performs insertion c reply) ↔
      literals.length = t.columns.length ∧
        ∀ p ∈ t.columns.zip literals, ∃ v, p.1.convert p.2.value = .ok v) ∧
    (∀ values, t.Reads literals values →
      s.Performs insertion
        (s.catalog.putTable d { t with rows := t.rows ++ [⟨t.columnNames.zip values⟩] })
        (.inserted t.name 1) ∧
      s.execute query = (s, .ok (.selected t.columnNames (t.rows.map Row.values))) ∧
      ∀ faults, let s' := (s.execute insertion).1.setFaults faults
        s'.execute query =
          (s', .ok (.selected t.columnNames (t.rows.map Row.values ++ [values])))) ∧
    (literals.length ≠ t.columns.length → s.execute insertion =
      (s, .error (.ofSyntax (.wrongValueCount t.name t.columns.length literals.length)))) ∧
    ∀ before c l after, literals.length = t.columns.length →
      t.columns.zip literals = before ++ (c, l) :: after →
      (∀ p ∈ before, ∃ v, p.1.convert p.2.value = .ok v) → (∀ v, c.convert l.value ≠ .ok v) →
      s.execute insertion =
        (s, .error (.ofConversion (.unreadable l.value c.type (some c.name)))) := by
  have hc := hs.wellFormed
  have hw := hc.current hd
  have hwt := hw.tables t ht
  have hperforms : ∀ values, t.Reads literals values → s.Performs insertion
      (s.catalog.putTable d { t with rows := t.rows ++ [⟨t.columnNames.zip values⟩] })
      (.inserted t.name 1) := by
    intro values hr
    have hins := (Table.insert_eq_ok_iff hwt.nodup).2 ⟨values, hr, rfl⟩
    exact Session.performs_changeTable hc hd ht hi rfl (by rw [hins]; rfl)
  refine ⟨⟨?_, ?_⟩, ?_, ?_, ?_⟩
  · rintro ⟨c, reply, h⟩
    obtain ⟨done, hact⟩ := h.exists_act hc hd ht hi rfl
    obtain ⟨t', hins, -⟩ := map_eq_ok_iff.1 hact
    obtain ⟨values, hreads, -⟩ := (Table.insert_eq_ok_iff hwt.nodup).1 hins
    exact Table.exists_reads_iff.1 ⟨values, hreads⟩
  · intro h
    obtain ⟨values, hr⟩ := Table.exists_reads_iff.2 h
    exact ⟨_, _, hperforms values hr⟩
  · intro values hr
    refine ⟨hperforms values hr, Session.execute_select_all hc hd ht hq, fun faults => ?_⟩
    obtain ⟨hc', hd'⟩ := (hperforms values hr).after hc hd faults
    have ht' := Database.mem_replaceTable ht
      (rfl : { t with rows := t.rows ++ [Row.mk (t.columnNames.zip values)] }.name = t.name)
    have hnew : (Row.mk (t.columnNames.zip values)).values = values :=
      List.map_snd_zip (by simp [Table.columnNames, hr.length_values])
    have hquery := Session.execute_select_all hc' hd' ht' hq
    rw [List.map_append, List.map_singleton, hnew] at hquery
    exact hquery
  · intro hl
    refine Session.execute_changeTable_of_error hc hd ht hi rfl ?_
    rw [Table.insert, if_neg hl]
    rfl
  · intro before c l after hl hz hb hcl
    refine Session.execute_changeTable_of_error hc hd ht hi rfl ?_
    rw [Table.insert_eq_error_of_first hwt.nodup hl hz hb hcl]
    rfl

theorem insert_exact_of_zeroSteps :
    ∃ s, (closed { store := .memory .empty }).run zeroSteps = .opened s ∧
      (∃ c, s.Performs "INSERT INTO t VALUES (1, 2);" c (.inserted "t" 1)) ∧
      let s' := (s.execute "INSERT INTO t VALUES (1, 2);").1.setFaults {}
      s'.execute "SELECT * FROM t;" = (s', .ok (.selected ["a", "b"]
        [[.float (.zero true), .string "NULL"], [.float (.ofInt 1), .string "2"]])) := by
  obtain ⟨s, hs, hd⟩ := opened_of_session? current_zeroSteps
  have hi : Statement.parse "INSERT INTO t VALUES (1, 2);" =
      .ok (.insert "t" [.text "1", .text "2"]) := by
    decide +kernel
  have hq : Statement.parse "SELECT * FROM t;" = .ok (.select "t" none none) := by decide +kernel
  have hr : zeroTable.Reads [.text "1", .text "2"] [.float (.ofInt 1), .string "2"] :=
    ⟨rfl, .cons (by decide +kernel) (.cons (by decide +kernel) .nil)⟩
  obtain ⟨hperforms, -, hquery⟩ := (insert_exact ⟨zeroSteps, hs⟩ (toOption_eq_some_iff.1 hd)
    (List.mem_singleton_self zeroTable) hi hq).2.1 _ hr
  exact ⟨s, hs, ⟨_, hperforms⟩, hquery {}⟩

end Connection

end TableStore

import TableStore.Proofs.Expressible

/-!
# Restated rows

What an answer shows of a row can be said again. Where all tables were made by statements, the
statement that inserts the shown values appends the same row, and a condition on one of them finds
the row.
-/
namespace TableStore

open Sql

theorem Database.WellFormed.table {d : Database} (hd : d.WellFormed) {t : Table}
    (ht : t ∈ d.tables) : d.table t.name = .ok t := by
  have hn : Text.trim t.name = t.name := (hd.tables t ht).name.2
  have hf : d.table? t.name = some t := by
    rw [table?, hn]
    cases hf : d.tables.find? fun u => u.name == t.name with
    | none => simpa using List.find?_eq_none.1 hf t ht
    | some u =>
      have hu : u.name = t.name := by simpa using List.find?_some hf
      rw [List.inj_on_of_nodup_map hd.nodup (List.mem_of_find?_eq_some hf) ht hu]
  rw [Database.table, hf]

theorem Value.isPrintable_literal {slot : Slot} {v : Value} (h : '"' ∉ v.text.toList) :
    (Lexeme.literal slot v.literal).IsPrintable := by
  cases v with
  | null => trivial
  | _ => exact h

namespace Row

variable {columns : List Column} {r : Row}

theorem IsExpressible.literals (h : r.IsExpressible) {slot : Slot} :
    ∀ l ∈ r.literals, (Lexeme.literal slot l).IsPrintable := by
  intro l hl
  obtain ⟨v, hv, rfl⟩ := List.mem_map.1 hl
  obtain ⟨cell, hcell, rfl⟩ := List.mem_map.1 hv
  exact Value.isPrintable_literal (h cell hcell)

end Row

namespace Sql.Statement

variable {c : Catalog} {d : Database} {t : Table} {r : Row}

theorem changeTable_of_act (hd : c.current = .ok d) {name : String} (ht : d.table name = .ok t)
    {act : Table → Except Error (Table × Except Error Nat)} {reply : Table → Nat → Reply}
    {t' : Table} {count : Nat} (ha : act t = .ok (t', .ok count)) :
    changeTable c name act reply =
      .ok ⟨c.putTable d t', if count = 0 then none else c.saveCall, .ok (reply t count)⟩ := by
  rw [changeTable, hd, ok_bind, ht, ok_bind, ha]
  rfl

theorem run_insert_literals (hc : c.WellFormed) (hd : c.current = .ok d) (ht : t ∈ d.tables)
    (hr : r ∈ t.rows) {d' : Database} (hd' : d' = d.replaceTable { t with rows := t.rows ++ [r] }) :
    (insert t.name r.literals).run c =
      .ok ⟨c.put d', some (.save d'.name), .ok (.inserted t.name 1)⟩ := by
  have hw := hc.current hd
  have hwt := hw.tables t ht
  have hi := Table.insert_literals hwt.nodup (hwt.rows r hr)
  have hname : d'.name = d.name := by
    rw [hd']
    rfl
  obtain ⟨hp, hs⟩ := hc.putCurrent_eq hd hname
  rw [run, changeTable_of_act hd (hw.table ht) (by rw [hi]; rfl), Catalog.putTable, ← hd', hp, hs]
  rfl

theorem run_select_literal (hc : c.WellFormed) (hd : c.current = .ok d) (ht : t ∈ d.tables)
    (hr : r ∈ t.rows) {before after : List Column} {column : Column}
    (hcol : t.columns = before ++ column :: after)
    (hb : ∀ b ∈ before, Text.lower b.name ≠ Text.lower column.name) {v : Value}
    (hv : r.get? column.name = some v) :
    ∃ rows, (select t.name none (some ⟨column.name, v.literal⟩)).run c =
      .ok ⟨c, none, .ok (.selected t.columnNames rows)⟩ ∧ r.values ∈ rows := by
  have hw := hc.current hd
  obtain ⟨rows, hsel, hm⟩ := Table.select_literal (hw.tables t ht) hr hcol hb hv
  refine ⟨rows, ?_, hm⟩
  rw [run, hd, ok_bind, hw.table ht, ok_bind, hsel]
  rfl

end Sql.Statement

/-! Sessions -/

namespace Storage

/-- A map in memory takes every document that no fault keeps out. -/
theorem save_memory {st : Storage} {docs : NameMap String} (hs : st.store = .memory docs)
    {d : Database} (hf : st.faults.save d.name = none) : (st.save d).2 = .ok () := by
  rw [save, hf, hs]
  rfl

end Storage

namespace Session

theorem execute_of_run {s : Session} {text : String} {statement : Statement}
    (hp : Statement.parse text = .ok statement) {ch : Change (Except Error Reply)}
    (hr : statement.run s.catalog = .ok ch) :
    s.execute text = ((s.commit ch).1, (s.commit ch).2.bind id) := by
  rw [execute, hp]
  dsimp only [change]
  rw [hr]

end Session

namespace Connection

/-- In every state that a run comes to from a storage without databases, for every row of a table
of the selected database: however a statement is written that inserts the values of the row, each as
`NULL` or as its text in quotes, it appends the same row, saves that, and reports it if it could be
saved, as it can in memory. And for every column whose name no earlier column has in any case, the
condition that the column has the row's value is written in the same way, and a selection with it
answers the row among others. -/
theorem restated_of_reaches {storage : Storage}
    (h₀ : storage.store.databases storage.reader = []) {s : Session}
    (hs : Reaches storage s) {d : Database} (hd : s.catalog.current = .ok d) {t : Table}
    (ht : t ∈ d.tables) {r : Row} (hr : r ∈ t.rows) :
    (∀ text rest,
      Laid SpellsPlainly (Statement.insert t.name r.literals).lexemes text.toList rest →
      (∀ b ∈ rest, Text.isBlank b = true) →
      let d' := d.replaceTable { t with rows := t.rows ++ [r] }
      s.execute text = (⟨s.catalog.put d', (s.storage.save d').1⟩,
        (s.storage.save d').2.map fun _ => .inserted t.name 1) ∧
      ∀ docs, s.storage.store = .memory docs → s.storage.faults.save d.name = none →
        (s.execute text).2 = .ok (.inserted t.name 1)) ∧
    ∀ before column after, t.columns = before ++ column :: after →
      (∀ b ∈ before, Text.lower b.name ≠ Text.lower column.name) →
      ∃ v, r.get? column.name = some v ∧ ∀ text rest,
        Laid SpellsPlainly
          (Statement.select t.name none (some ⟨column.name, v.literal⟩)).lexemes text.toList rest →
        (∀ b ∈ rest, Text.isBlank b = true) →
        ∃ rows, s.execute text = (s, .ok (.selected t.columnNames rows)) ∧ r.values ∈ rows := by
  have hc := hs.wellFormed
  have hw := (hc.current hd).tables t ht
  have he : t.IsExpressible := (hs.isExpressible h₀).current hd t ht
  have hf := hw.rows r hr
  constructor
  · intro text rest hl hb d'
    have hp : (Statement.insert t.name r.literals).IsPrintable := by
      refine Statement.isPrintable_insert_iff.2 ⟨?_, he.name, (he.rows r hr).literals⟩
      intro hn
      have hlen := hf.length_literals
      rw [hn, List.length_nil, eq_comm, List.length_eq_zero_iff] at hlen
      exact hw.columns_ne_nil hlen
    have hparse := Statement.parse_eq_ok_iff.2 ⟨hp.items, rest, hl.spells hp.lexemes, hb⟩
    have hx : s.execute text = (⟨s.catalog.put d', (s.storage.save d').1⟩,
        (s.storage.save d').2.map fun _ => .inserted t.name 1) := by
      rw [Session.execute_of_run hparse (Statement.run_insert_literals hc hd ht hr rfl),
        Session.commit_put]
      cases (s.storage.save d').2 <;> rfl
    refine ⟨hx, fun docs hdocs hfault => ?_⟩
    rw [hx, Storage.save_memory hdocs (show s.storage.faults.save d'.name = none from hfault)]
    rfl
  · intro before column after hcol hbefore
    have hm : column ∈ t.columns := by simp [hcol]
    obtain ⟨v, hv, -⟩ := hf.get? hw.nodup hm
    obtain ⟨rows, hrun, hrows⟩ := Statement.run_select_literal hc hd ht hr hcol hbefore hv
    refine ⟨v, hv, fun text rest hl hb => ⟨rows, ?_, hrows⟩⟩
    have hcell := (hf.get?_eq_some_iff hw.nodup).1 hv
    have hp := Statement.isPrintable_select he.name (he.columns column hm)
      (Value.isPrintable_literal (he.rows r hr _ hcell))
    have hparse := Statement.parse_eq_ok_iff.2 ⟨hp.items, rest, hl.spells hp.lexemes, hb⟩
    rw [Session.execute_of_run hparse hrun]
    rfl

/-- A zero below zero, and a text that looks like no value. -/
def zeroRow : Row := ⟨[("a", .float (.zero true)), ("b", .string "NULL")]⟩

def zeroTable : Table := ⟨"t", [⟨"a", .double⟩, ⟨"b", .string⟩], [zeroRow]⟩

def zeroSteps : List (Faults × Action) :=
  [({}, .reopen),
    ({}, .session (.execute "CREATE DATABASE d;")),
    ({}, .session (.execute "USE d;")),
    ({}, .session (.execute "CREATE TABLE t (a DOUBLE, b STRING);")),
    ({}, .session (.execute "INSERT INTO t VALUES (-0, \"NULL\");"))]

theorem current_zeroSteps :
    ((closed { store := .memory .empty }).run zeroSteps).session?.map
      (fun s => s.catalog.current.toOption) = some (some ⟨"d", [zeroTable]⟩) := by
  decide +kernel

theorem restated_of_zeroSteps :
    zeroRow.literals = [.text "-0.0", .text "NULL"] ∧
    ∃ s, (closed { store := .memory .empty }).run zeroSteps = .opened s ∧
      (s.execute (Statement.insert "t" zeroRow.literals).print).1.catalog =
        s.catalog.put ⟨"d", [{ zeroTable with rows := [zeroRow, zeroRow] }]⟩ ∧
      ∃ rows, s.execute (Statement.select "t" none (some ⟨"b", .text "NULL"⟩)).print =
        (s, .ok (.selected ["a", "b"] rows)) ∧ zeroRow.values ∈ rows := by
  refine ⟨by decide +kernel, ?_⟩
  have hc := current_zeroSteps
  cases hs : (closed { store := .memory .empty }).run zeroSteps with
  | closed storage =>
    rw [hs] at hc
    cases hc
  | opened s =>
    rw [hs] at hc
    have hd := toOption_eq_some_iff.1 (Option.some.inj hc)
    obtain ⟨hi, hsel⟩ := restated_of_reaches rfl ⟨zeroSteps, hs⟩ hd (List.mem_singleton_self _)
      (List.mem_singleton_self zeroRow)
    refine ⟨s, rfl, ?_, ?_⟩
    · exact congrArg (fun r => r.1.catalog) (hi _ [] (Statement.laid_print _) (by simp)).1
    · obtain ⟨v, hv, hx⟩ := hsel [⟨"a", .double⟩] ⟨"b", .string⟩ [] rfl (by decide)
      cases hv
      exact hx _ [] (Statement.laid_print _) (by simp)

end Connection

end TableStore

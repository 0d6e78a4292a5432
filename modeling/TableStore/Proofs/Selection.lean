import TableStore.Proofs.Assignment

/-!
# One condition, one set of rows

A query, an update and a deletion with the same condition are about the same rows: those that have
the value that the condition asks for. Where the condition cannot be understood all three say so in
the same way.
-/
namespace TableStore

open Sql

namespace Table

variable {t : Table} {condition : Option Condition} {e : Error}

/-! A condition that is not understood -/

theorem select_of_selector_error {columns : Option (List String)} {names : List String}
    (hl : t.Lists columns names) (h : t.selector condition = .error e) :
    t.select columns condition = .error e := by
  rw [select, hl.resolve, ok_bind, h]
  rfl

theorem update_of_selector_error {assignments : List Assignment} {values : List (Column × Value)}
    (hn : t.columnNames.Nodup) (hs : t.Sets assignments values)
    (h : t.selector condition = .error e) : t.update assignments condition = .error e := by
  rw [update, (resolveAssignments_nil_eq_ok_iff hn).2 hs, ok_bind, h]
  rfl

theorem delete_of_selector_error (h : t.selector condition = .error e) :
    t.delete condition = .error e := by
  rw [delete, h]
  rfl

/-- Without the rows that meet a condition there are none that do. -/
theorem filter_meets_filter_not (t : Table) (target : Option (Column × Value)) :
    ((t.rows.filter fun r => ¬r.Meets target).filter fun r => r.Meets target) = [] := by
  rw [List.filter_filter, List.filter_eq_nil_iff]
  simp

end Table

namespace Session

variable {s : Session} {d : Database} {t : Table} {text : String} {condition : Option Condition}
  {target : Option (Column × Value)}

/-- A query whose condition is understood changes nothing and shows the rows that meet it. -/
theorem execute_select_of_means (hc : s.catalog.WellFormed) (hd : s.catalog.current = .ok d)
    (ht : t ∈ d.tables) {columns : Option (List String)} {names : List String}
    (hl : t.Lists columns names)
    (hp : Statement.parse text = .ok (.select t.name columns condition))
    (hm : t.Means condition target) :
    ∃ shown, s.execute text = (s, .ok (.selected names shown)) ∧
      List.Forall₂ (Row.Shows names) (t.rows.filter fun r => r.Meets target) shown := by
  have hw := hc.current hd
  obtain ⟨shown, hsel, hshown⟩ := hm.select (hw.tables t ht) hl
  refine ⟨shown, ?_, hshown⟩
  rw [execute_select hd (hw.table ht) hp, hsel]
  rfl

/-- A deletion whose condition no row meets changes nothing. -/
theorem execute_delete_of_forall_not (hc : s.catalog.WellFormed) (hd : s.catalog.current = .ok d)
    (ht : t ∈ d.tables) (hp : Statement.parse text = .ok (.delete t.name condition))
    (hm : t.Means condition target) (h : (t.rows.filter fun r => r.Meets target) = []) :
    s.execute text = (s, .ok (.deleted 0)) := by
  have hwt := (hc.current hd).tables t ht
  have hdel := hm.delete hwt
  rw [h] at hdel
  have hact : ((t.delete condition).map fun r => (r.1, (.ok r.2 : Except Error Nat))) =
      .ok (_, .ok 0) := congrArg (Except.map _) hdel
  rw [execute_changeTable hc hd ht hp rfl hact (Table.delete_eq_ok hwt hdel)]
  rfl

end Session

namespace Connection

/-- In every state that a run comes to, for every table of the selected database and every
condition: if the condition is understood, every query shows the rows that meet it, with the values
that they have; every deletion leaves the others and counts them, and afterwards no query and no
deletion finds one; and every update counts them. If it is not understood, all queries, updates and
deletions answer with one error and do nothing. -/
theorem rows_of_condition {storage : Storage} {s : Session} (hs : Reaches storage s) {d : Database}
    (hd : s.catalog.current = .ok d) {t : Table} (ht : t ∈ d.tables)
    (condition : Option Condition) :
    (∀ target, t.Means condition target →
      let matching := t.rows.filter fun r => r.Meets target
      (∀ query columns names, t.Lists columns names →
        Statement.parse query = .ok (.select t.name columns condition) →
        ∃ shown, s.execute query = (s, .ok (.selected names shown)) ∧
          List.Forall₂ (Row.Shows names) matching shown) ∧
      (∀ update assignments values, t.Sets assignments values →
        Statement.parse update = .ok (.update t.name assignments condition) →
        ∃ c, s.Performs update c (.updated matching.length)) ∧
      ∀ deletion, Statement.parse deletion = .ok (.delete t.name condition) →
        s.Performs deletion
          (s.catalog.putTable d { t with rows := t.rows.filter fun r => ¬r.Meets target })
          (.deleted matching.length) ∧
        ∀ faults, let s' := (s.execute deletion).1.setFaults faults
          (∀ query columns names, t.Lists columns names →
            Statement.parse query = .ok (.select t.name columns condition) →
            s'.execute query = (s', .ok (.selected names []))) ∧
          ∀ again, Statement.parse again = .ok (.delete t.name condition) →
            s'.execute again = (s', .ok (.deleted 0))) ∧
    ((∀ target, ¬t.Means condition target) → ∃ e,
      (∀ query columns names, t.Lists columns names →
        Statement.parse query = .ok (.select t.name columns condition) →
        s.execute query = (s, .error e)) ∧
      (∀ update assignments values, t.Sets assignments values →
        Statement.parse update = .ok (.update t.name assignments condition) →
        s.execute update = (s, .error e)) ∧
      ∀ deletion, Statement.parse deletion = .ok (.delete t.name condition) →
        s.execute deletion = (s, .error e)) := by
  have hc := hs.wellFormed
  have hw := hc.current hd
  have hwt := hw.tables t ht
  constructor
  · intro target hm
    have hdel := hm.delete hwt
    refine ⟨fun query columns names hl hq =>
        Session.execute_select_of_means hc hd ht hl hq hm,
      fun update assignments values hsets hu => ?_, fun deletion hx => ?_⟩
    · obtain ⟨rows, hupdate, -⟩ := hsets.update hwt hm
      exact ⟨_, Session.performs_changeTable hc hd ht hu rfl hupdate⟩
    · have hperforms := Session.performs_changeTable hc hd ht hx rfl
        (congrArg (Except.map fun r => (r.1, (.ok r.2 : Except Error Nat))) hdel)
      refine ⟨hperforms, fun faults => ?_⟩
      -- what is left is a table of the same columns without a row that meets the condition
      obtain ⟨hc', hd'⟩ := hperforms.after hc hd faults
      have ht' := Database.mem_replaceTable ht
        (rfl : { t with rows := t.rows.filter fun r => ¬r.Meets target }.name = t.name)
      have hnone := t.filter_meets_filter_not target
      refine ⟨fun query columns names hl hq => ?_, fun again ha => ?_⟩
      · obtain ⟨shown, hselect, hshown⟩ := Session.execute_select_of_means hc' hd' ht'
          (hl.withRows _) hq (hm.withRows _)
        rw [hnone, List.forall₂_nil_left_iff] at hshown
        rw [hselect, hshown]
      · exact Session.execute_delete_of_forall_not hc' hd' ht' ha (hm.withRows _) hnone
  · intro hm
    obtain ⟨e, he⟩ := Table.exists_selector_error hm
    refine ⟨e, fun query columns names hl hq => ?_, fun update assignments values hsets hu => ?_,
      fun deletion hx => ?_⟩
    · rw [Session.execute_select hd (hw.table ht) hq, Table.select_of_selector_error hl he]
      rfl
    · exact Session.execute_changeTable_of_error hc hd ht hu rfl
        (Table.update_of_selector_error hwt.nodup hsets he)
    · exact Session.execute_changeTable_of_error hc hd ht hx rfl
        (congrArg (Except.map _) (Table.delete_of_selector_error he))

theorem lists_readings : readings.Lists (some ["b", "A", "B"]) ["B", "a", "B"] := by
  refine .cons ?_ (.cons ?_ (.cons ?_ .nil))
  · exact ⟨⟨"B", .string⟩, Table.findColumn_eq_ok_iff.1 rfl, rfl⟩
  · exact ⟨⟨"a", .double⟩, Table.findColumn_eq_ok_iff.1 rfl, rfl⟩
  · exact ⟨⟨"B", .string⟩, Table.findColumn_eq_ok_iff.1 rfl, rfl⟩

theorem filter_readings : (readings.rows.filter fun r =>
    r.Meets (some (⟨"a", .double⟩, .float (.zero false)))) =
      [⟨[("a", .float (.zero true)), ("B", .string "x")]⟩,
        ⟨[("a", .float (.zero false)), ("B", .null)]⟩] := by
  decide +kernel

theorem rows_of_condition_readings :
    ∃ s, (closed { store := .memory .empty }).run readingSteps = .opened s ∧
      (∃ shown, s.execute "SELECT b, A, B FROM t WHERE a = 0;" =
          (s, .ok (.selected ["B", "a", "B"] shown)) ∧
        List.Forall₂ (Row.Shows ["B", "a", "B"])
          [⟨[("a", .float (.zero true)), ("B", .string "x")]⟩,
            ⟨[("a", .float (.zero false)), ("B", .null)]⟩] shown) ∧
      (∃ c, s.Performs "DELETE FROM t WHERE a = 0;" c (.deleted 2)) ∧
      ∃ c, s.Performs "UPDATE t SET A = 1, b = y WHERE a = 0;" c (.updated 2) := by
  obtain ⟨s, hs, hd⟩ := run_readingSteps
  have hq : Statement.parse "SELECT b, A, B FROM t WHERE a = 0;" =
      .ok (.select "t" (some ["b", "A", "B"]) (some ⟨"a", .text "0"⟩)) := by
    decide +kernel
  have hx : Statement.parse "DELETE FROM t WHERE a = 0;" =
      .ok (.delete "t" (some ⟨"a", .text "0"⟩)) := by
    decide +kernel
  obtain ⟨hunderstood, -⟩ := rows_of_condition ⟨readingSteps, hs⟩ hd (List.mem_singleton_self _)
    (some ⟨"a", .text "0"⟩)
  obtain ⟨hquery, hupdate, hdeletion⟩ := hunderstood _ means_readings
  rw [filter_readings] at hquery hupdate hdeletion
  exact ⟨s, hs, hquery _ _ _ lists_readings hq, ⟨_, (hdeletion _ hx).1⟩,
    hupdate _ _ _ sets_readings parse_readings⟩

end Connection

end TableStore

import TableStore.Proofs.Query
import TableStore.Sql.Execution

/-!
# Changes to a catalog

All that a statement can do to a well-formed catalog: nothing, select a database, put one under its
name, or drop one; and the storage call that goes with it. Everything that statements preserve is
shown for these four.
-/
namespace TableStore

open Sql

namespace Catalog

/-- Every database is well formed and held under its own name, and so is the selected one. -/
structure WellFormed (c : Catalog) : Prop where
  databases : ∀ name d, c.databases.get? name = some d → d.name = name ∧ d.WellFormed
  selected : ∀ name, c.selected = some name → ∃ d, c.databases.get? name = some d

theorem WellFormed.of_mem_values {c : Catalog} (hc : c.WellFormed) {d : Database}
    (h : d ∈ c.databases.values) : c.databases.get? d.name = some d ∧ d.WellFormed := by
  obtain ⟨⟨name, d'⟩, hm, rfl⟩ := List.mem_map.1 h
  have hg := NameMap.get?_eq_some_iff_mem.2 hm
  obtain ⟨rfl, hw⟩ := hc.databases name d' hg
  exact ⟨hg, hw⟩

/-- The catalog and the storage call that a statement can come to. -/
inductive Moves (c : Catalog) : Catalog → Option StorageCall → Prop
  | stay : Moves c c none
  | select {name : String} (h : ∃ d, c.databases.get? name = some d) :
    Moves c { c with selected := some name } none
  | put {d : Database} (h : d.WellFormed)
    (hn : isFitName d.name = true ∨ ∃ e, c.databases.get? d.name = some e) :
    Moves c (c.put d) (some (.save d.name))
  | drop {name : String} (h : ∃ d, c.databases.get? name = some d) :
    Moves c ⟨c.databases.erase name, if c.selected = some name then none else c.selected⟩
      (some (.remove name))

theorem Moves.wellFormed {c c' : Catalog} {call : Option StorageCall} (h : c.Moves c' call)
    (hc : c.WellFormed) : c'.WellFormed := by
  cases h with
  | stay => exact hc
  | select h =>
    refine ⟨hc.databases, ?_⟩
    rintro name hn
    cases hn
    exact h
  | @put d hd _ =>
    constructor
    · intro name e he
      rw [Catalog.put, NameMap.get?_insert] at he
      split at he
      · rename_i hn
        cases he
        exact ⟨hn.symm, hd⟩
      · exact hc.databases name e he
    · intro name hn
      obtain ⟨e, he⟩ := hc.selected name hn
      rw [Catalog.put, NameMap.get?_insert]
      split
      · exact ⟨d, rfl⟩
      · exact ⟨e, he⟩
  | @drop dropped _ =>
    constructor
    · intro name e he
      rw [NameMap.get?_erase] at he
      split at he
      · cases he
      · exact hc.databases name e he
    · intro name hn
      dsimp only at hn
      split at hn
      · cases hn
      · rename_i hne
        have hk : name ≠ dropped := fun he => hne (by rw [hn, he])
        rw [NameMap.get?_erase, if_neg hk]
        exact hc.selected name hn

theorem database_eq_ok {c : Catalog} {name : String} {d : Database} (h : c.database name = .ok d) :
    c.databases.get? name = some d := by
  unfold database at h
  split at h
  · rename_i hd
    cases h
    exact hd
  · cases h

theorem current_eq_ok {c : Catalog} {d : Database} (h : c.current = .ok d) :
    ∃ name, c.selected = some name ∧ c.databases.get? name = some d := by
  unfold current at h
  split at h
  · rename_i hd
    cases h
    exact Option.bind_eq_some_iff.1 hd
  · cases h

theorem putCurrent_current {c : Catalog} {d : Database} (h : c.current = .ok d) :
    c.putCurrent d = c := by
  obtain ⟨name, hs, hg⟩ := current_eq_ok h
  obtain ⟨databases, selected⟩ := c
  cases hs
  exact congrArg (Catalog.mk · (some name)) (NameMap.insert_of_get? hg)

/-- What takes the place of the selected database is put under its name, and saved. -/
theorem WellFormed.putCurrent_eq {c : Catalog} (hc : c.WellFormed) {d d' : Database}
    (h : c.current = .ok d) (hn : d'.name = d.name) :
    c.putCurrent d' = c.put d' ∧ c.saveCall = some (.save d'.name) := by
  obtain ⟨name, hs, hg⟩ := current_eq_ok h
  obtain ⟨rfl, -⟩ := hc.databases name d hg
  rw [putCurrent, put, saveCall, hs, hn]
  exact ⟨rfl, rfl⟩

theorem WellFormed.moves_putCurrent {c : Catalog} (hc : c.WellFormed) {d d' : Database}
    (h : c.current = .ok d) (hd : d'.WellFormed) (hn : d'.name = d.name) :
    c.Moves (c.putCurrent d') c.saveCall := by
  obtain ⟨name, -, hg⟩ := current_eq_ok h
  obtain ⟨rfl, -⟩ := hc.databases name d hg
  obtain ⟨hp, hs⟩ := hc.putCurrent_eq h hn
  rw [hp, hs]
  exact .put hd (.inr ⟨d, by rw [hn, hg]⟩)

theorem createDatabase_moves {c : Catalog} {name : String} {ch : Change String}
    (h : c.createDatabase name = .ok ch) : c.Moves ch.catalog ch.call := by
  obtain ⟨d, hd, h⟩ := bind_eq_ok_iff.1 h
  dsimp only at h
  split at h
  · cases h
  · rename_i hf
    split at h
    · cases h
    · cases h
      exact .put (Database.make_eq_ok hd).1 (.inl (by simpa using hf))

theorem dropDatabase_moves {c : Catalog} {name : String} {ch : Change Unit}
    (h : c.dropDatabase name = .ok ch) : c.Moves ch.catalog ch.call := by
  obtain ⟨d, hd, h⟩ := bind_eq_ok_iff.1 h
  cases h
  exact .drop ⟨d, database_eq_ok hd⟩

theorem useDatabase_moves {c : Catalog} {name : String} {ch : Change Unit}
    (h : c.useDatabase name = .ok ch) : c.Moves ch.catalog ch.call := by
  obtain ⟨d, hd, h⟩ := bind_eq_ok_iff.1 h
  cases h
  exact .select ⟨d, database_eq_ok hd⟩

theorem WellFormed.current {c : Catalog} (hc : c.WellFormed) {d : Database}
    (h : c.current = .ok d) : d.WellFormed := by
  obtain ⟨name, -, hg⟩ := current_eq_ok h
  exact (hc.databases name d hg).2

theorem createTable_moves {c : Catalog} (hc : c.WellFormed) {name : String} {columns : List Column}
    (hp : ∀ column ∈ columns, IsProper column.name) {ch : Change String}
    (h : c.createTable name columns = .ok ch) : c.Moves ch.catalog ch.call := by
  obtain ⟨d, hd, h⟩ := bind_eq_ok_iff.1 h
  obtain ⟨d', hd', h⟩ := bind_eq_ok_iff.1 h
  cases h
  obtain ⟨hw, hn⟩ := Database.createTable_eq_ok (hc.current hd) hp hd'
  exact hc.moves_putCurrent hd hw hn

theorem dropTable_moves {c : Catalog} (hc : c.WellFormed) {name : String}
    {ch : Change (String × String)} (h : c.dropTable name = .ok ch) :
    c.Moves ch.catalog ch.call := by
  obtain ⟨d, hd, h⟩ := bind_eq_ok_iff.1 h
  obtain ⟨⟨d', t⟩, hd', h⟩ := bind_eq_ok_iff.1 h
  cases h
  obtain ⟨hw, hn⟩ := Database.dropTable_eq_ok (hc.current hd) hd'
  exact hc.moves_putCurrent hd hw hn

end Catalog

namespace Sql.Statement

variable {c : Catalog}

/-- A change of one table goes through to a reply, given that all of the work on the table does. -/
theorem changeTable_moves (hc : c.WellFormed) {name : String}
    {act : Table → Except Error (Table × Except Error Nat)} {reply : Table → Nat → Reply}
    (ha : ∀ t r, t.WellFormed → act t = .ok r → ∃ count, r.2 = .ok count ∧ t.Becomes r.1 count)
    {ch : Change (Except Error Reply)} (h : changeTable c name act reply = .ok ch) :
    c.Moves ch.catalog ch.call ∧ ∃ answer, ch.result = .ok answer := by
  obtain ⟨d, hd, h⟩ := bind_eq_ok_iff.1 h
  obtain ⟨t, ht, h⟩ := bind_eq_ok_iff.1 h
  obtain ⟨⟨t', outcome⟩, hr, h⟩ := bind_eq_ok_iff.1 h
  have hw := hc.current hd
  have hm := (Database.table_eq_ok ht).1
  obtain ⟨count, ho, hb⟩ := ha t (t', outcome) (hw.tables t hm) hr
  dsimp only at ho hb
  subst ho
  cases h
  refine ⟨?_, _, rfl⟩
  by_cases h0 : count = 0
  · have hp : c.putTable d t' = c := by
      rw [hb.unchanged h0, Catalog.putTable, Database.replaceTable_self hw.nodup hm,
        Catalog.putCurrent_current hd]
    rw [hp, if_pos h0]
    exact .stay
  · rw [if_neg h0]
    exact hc.moves_putCurrent hd (hw.replaceTable hb.wellFormed) rfl

/-- A statement on a well-formed catalog comes to one of the moves and to a reply. -/
theorem run_moves (hc : c.WellFormed) {statement : Statement} {ch : Change (Except Error Reply)}
    (h : statement.run c = .ok ch) :
    c.Moves ch.catalog ch.call ∧ ∃ answer, ch.result = .ok answer := by
  cases statement with
  | createDatabase name =>
    obtain ⟨ch', h', h⟩ := bind_eq_ok_iff.1 h
    cases h
    exact ⟨Catalog.createDatabase_moves h', _, rfl⟩
  | dropDatabase name =>
    obtain ⟨ch', h', h⟩ := bind_eq_ok_iff.1 h
    cases h
    exact ⟨Catalog.dropDatabase_moves h', _, rfl⟩
  | useDatabase name =>
    obtain ⟨ch', h', h⟩ := bind_eq_ok_iff.1 h
    cases h
    exact ⟨Catalog.useDatabase_moves h', _, rfl⟩
  | showDatabases =>
    cases h
    exact ⟨.stay, _, rfl⟩
  | createTable name specs =>
    obtain ⟨columns, hcs, h⟩ := bind_eq_ok_iff.1 h
    obtain ⟨ch', h', h⟩ := bind_eq_ok_iff.1 h
    cases h
    have hp := forall_mem_of_mapM (fun _ _ => Column.isProper_make) hcs
    exact ⟨Catalog.createTable_moves hc hp h', _, rfl⟩
  | dropTable name =>
    obtain ⟨ch', h', h⟩ := bind_eq_ok_iff.1 h
    cases h
    exact ⟨Catalog.dropTable_moves hc h', _, rfl⟩
  | showTables =>
    obtain ⟨d, hd, h⟩ := bind_eq_ok_iff.1 h
    cases h
    exact ⟨.stay, _, rfl⟩
  | insert table values =>
    refine changeTable_moves hc (fun t r ht hr => ?_) h
    obtain ⟨t', hi, rfl⟩ := map_eq_ok_iff.1 hr
    exact ⟨1, rfl, Table.insert_eq_ok ht hi⟩
  | select table columns condition =>
    obtain ⟨d, hd, h⟩ := bind_eq_ok_iff.1 h
    obtain ⟨t, ht, h⟩ := bind_eq_ok_iff.1 h
    obtain ⟨r, hr, h⟩ := bind_eq_ok_iff.1 h
    cases h
    exact ⟨.stay, _, rfl⟩
  | update table assignments condition =>
    exact changeTable_moves hc (fun t r ht hr => Table.update_eq_ok ht hr) h
  | delete table condition =>
    refine changeTable_moves hc (fun t r ht hr => ?_) h
    obtain ⟨r', hd, rfl⟩ := map_eq_ok_iff.1 hr
    exact ⟨r'.2, rfl, Table.delete_eq_ok ht hd⟩
  | help =>
    cases h
    exact ⟨.stay, _, rfl⟩

end Sql.Statement

end TableStore

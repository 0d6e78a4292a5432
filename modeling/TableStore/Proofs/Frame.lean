import TableStore.Proofs.FaultIsolation

/-!
# Frames

What a statement leaves as it is. It is about one database, the one that it names or the selected
one, and in the selected one about the table that it names. It makes one storage call at most, for
that database and after all of its work, and when it makes none all databases are as before.
-/
namespace TableStore

open Sql

theorem Table.name_of_make {name : String} {columns : List Column} {t : Table}
    (h : make name columns = .ok t) : t.name = Text.trim name := by
  obtain ⟨n, hn, h⟩ := bind_eq_ok_iff.1 h
  dsimp only at h
  split at h
  · cases h
  · split at h
    · cases h
    · cases h
      exact (properName_eq_ok hn).1

theorem Table.name_of_insert {t t' : Table} {values : List Literal}
    (h : t.insert values = .ok t') : t'.name = t.name := by
  unfold insert at h
  split at h
  · obtain ⟨r, -, h⟩ := bind_eq_ok_iff.1 h
    cases h
    rfl
  · cases h

theorem Table.name_of_update {t : Table} {assignments : List Assignment}
    {condition : Option Condition} {r : Table × Except Error Nat}
    (h : t.update assignments condition = .ok r) : r.1.name = t.name := by
  obtain ⟨values, -, h⟩ := bind_eq_ok_iff.1 h
  obtain ⟨selects, -, h⟩ := bind_eq_ok_iff.1 h
  cases h
  rfl

theorem Table.name_of_delete {t : Table} {condition : Option Condition} {r : Table × Nat}
    (h : t.delete condition = .ok r) : r.1.name = t.name := by
  obtain ⟨selects, -, h⟩ := bind_eq_ok_iff.1 h
  cases h
  rfl

namespace Database

/-- All tables but one are the same in the same order, and no two of the tables that stay change
places. -/
structure Frame (table : Option String) (d d' : Database) : Prop where
  name : d'.name = d.name
  others : (d'.tables.filter fun t => some t.name ≠ table) =
    d.tables.filter fun t => some t.name ≠ table
  order : d'.tableNames.Sublist d.tableNames ∨ d.tableNames.Sublist d'.tableNames

theorem Frame.refl (table : Option String) (d : Database) : d.Frame table d :=
  ⟨rfl, rfl, .inl (.refl _)⟩

theorem frame_createTable {d d' : Database} {name : String} {columns : List Column}
    (h : d.createTable name columns = .ok d') : d.Frame (some (Text.trim name)) d' := by
  obtain ⟨t, ht, h⟩ := bind_eq_ok_iff.1 h
  dsimp only at h
  split at h
  · cases h
  · cases h
    refine ⟨rfl, ?_, .inr ?_⟩
    · simp [List.filter_append, Table.name_of_make ht]
    · simp [tableNames]

theorem frame_dropTable {d : Database} {name : String} {r : Database × Table}
    (h : d.dropTable name = .ok r) : d.Frame (some (Text.trim name)) r.1 := by
  obtain ⟨t, ht, h⟩ := bind_eq_ok_iff.1 h
  obtain ⟨-, hn⟩ := table_eq_ok ht
  cases h
  refine ⟨rfl, ?_, .inl (List.eraseP_sublist.map _)⟩
  rw [hn]
  dsimp only
  induction d.tables with
  | nil => rfl
  | cons u us ih =>
    by_cases hu : u.name = Text.trim name
    · rw [List.eraseP_cons_of_pos (by simpa using hu), List.filter_cons_of_neg (by simp [hu])]
    · rw [List.eraseP_cons_of_neg (by simpa using hu), List.filter_cons, List.filter_cons, ih]

theorem frame_replaceTable (d : Database) (t : Table) :
    d.Frame (some t.name) (d.replaceTable t) := by
  refine ⟨rfl, ?_, .inl ?_⟩
  · rw [replaceTable]
    dsimp only
    induction d.tables with
    | nil => rfl
    | cons u us ih =>
      rw [List.map_cons, List.filter_cons, List.filter_cons, ih]
      by_cases hu : u.name = t.name
      · simp [hu]
      · simp [hu]
  · rw [tableNames_replaceTable]

end Database

/-! What a statement is about -/

namespace Sql.Statement

/-- The database that a statement names; those that name none are about the selected one. -/
def database? : Statement → Option String
  | createDatabase name => some (Text.trim name)
  | dropDatabase name => some (Text.trim name)
  | useDatabase name => some (Text.trim name)
  | _ => none

/-- The table that a statement names. -/
def table? : Statement → Option String
  | createTable name _ => some (Text.trim name)
  | dropTable name => some (Text.trim name)
  | insert name _ => some (Text.trim name)
  | select name _ _ => some (Text.trim name)
  | update name _ _ => some (Text.trim name)
  | delete name _ => some (Text.trim name)
  | _ => none

/-- A statement that changes no database, whatever there is. -/
def isPassive : Statement → Bool
  | useDatabase _ => true
  | showDatabases => true
  | showTables => true
  | select _ _ _ => true
  | help => true
  | _ => false

end Sql.Statement

namespace Catalog

/-- What a statement leaves as it is: every other database, and if it names none also the
selection, and in the selected database all but the table that it names. -/
structure Frame (statement : Statement) (c c' : Catalog) : Prop where
  others : ∀ name, some name ≠ statement.database?.or c.selected →
    c'.databases.get? name = c.databases.get? name
  selected : statement.database? = none → c'.selected = c.selected
  current : statement.database? = none → ∀ d, c.current = .ok d →
    ∃ d', c'.current = .ok d' ∧ d.Frame statement.table? d'

variable {c : Catalog} {statement : Statement}

theorem Frame.refl (statement : Statement) (c : Catalog) : c.Frame statement c :=
  ⟨fun _ _ => rfl, fun _ => rfl, fun _ d hd => ⟨d, hd, .refl _ d⟩⟩

/-- A frame of the selected database is one of the catalog. -/
theorem frame_putCurrent {d d' : Database} (hd : c.current = .ok d)
    (hs : statement.database? = none) (h : d.Frame statement.table? d') :
    c.Frame statement (c.putCurrent d') := by
  obtain ⟨name, hn, hg⟩ := current_eq_ok hd
  have hp : c.putCurrent d' = ⟨c.databases.insert name d', some name⟩ := by
    rw [putCurrent, hn]
  rw [hp]
  refine ⟨fun k hk => ?_, fun _ => hn.symm, fun _ e he => ⟨d', ?_, ?_⟩⟩
  · rw [hs, hn] at hk
    exact NameMap.get?_insert_of_ne _ _ fun he => hk (congrArg some he)
  · rw [current, Option.bind_some, NameMap.get?_insert_self]
  · rw [hd] at he
    cases he
    exact h

theorem get?_of_createDatabase {name : String} {ch : Change String}
    (h : c.createDatabase name = .ok ch) (k : String) (hk : k ≠ Text.trim name) :
    ch.catalog.databases.get? k = c.databases.get? k := by
  obtain ⟨d, hd, h⟩ := bind_eq_ok_iff.1 h
  dsimp only at h
  split at h
  · cases h
  · split at h
    · cases h
    · cases h
      rw [← (Database.make_eq_ok hd).2] at hk
      exact NameMap.get?_insert_of_ne _ _ hk

theorem get?_of_dropDatabase {name : String} {ch : Change Unit}
    (h : c.dropDatabase name = .ok ch) (k : String) (hk : k ≠ Text.trim name) :
    ch.catalog.databases.get? k = c.databases.get? k := by
  obtain ⟨d, -, h⟩ := bind_eq_ok_iff.1 h
  cases h
  exact NameMap.get?_erase_of_ne _ hk

theorem useDatabase_eq_ok {name : String} {ch : Change Unit}
    (h : c.useDatabase name = .ok ch) : ch.catalog.databases = c.databases ∧ ch.call = none := by
  obtain ⟨d, -, h⟩ := bind_eq_ok_iff.1 h
  cases h
  exact ⟨rfl, rfl⟩

end Catalog

namespace Sql.Statement

variable {c : Catalog} {statement : Statement} {ch : Change (Except Error Reply)}

/-- Work on one table is framed by the name of the table. -/
theorem frame_changeTable {name : String} {act : Table → Except Error (Table × Except Error Nat)}
    {reply : Table → Nat → Reply} (ha : ∀ t r, act t = .ok r → r.1.name = t.name)
    (h : changeTable c name act reply = .ok ch) (hs : statement.database? = none)
    (ht : statement.table? = some (Text.trim name)) : c.Frame statement ch.catalog := by
  obtain ⟨d, hd, h⟩ := bind_eq_ok_iff.1 h
  obtain ⟨t, htable, h⟩ := bind_eq_ok_iff.1 h
  obtain ⟨⟨t', outcome⟩, hr, h⟩ := bind_eq_ok_iff.1 h
  have hn : t'.name = Text.trim name := (ha t _ hr).trans (Database.table_eq_ok htable).2
  have hf : c.Frame statement (c.putTable d t') := by
    refine Catalog.frame_putCurrent hd hs ?_
    rw [ht, ← hn]
    exact Database.frame_replaceTable d t'
  cases outcome with
  | error e =>
    cases h
    exact hf
  | ok count =>
    cases h
    exact hf

/-- No statement reaches beyond what it is about. -/
theorem frame_run (h : statement.run c = .ok ch) : c.Frame statement ch.catalog := by
  cases statement with
  | createDatabase name =>
    obtain ⟨ch', h', h⟩ := bind_eq_ok_iff.1 h
    cases h
    exact ⟨fun k hk => Catalog.get?_of_createDatabase h' k fun he => hk (congrArg some he),
      nofun, nofun⟩
  | dropDatabase name =>
    obtain ⟨ch', h', h⟩ := bind_eq_ok_iff.1 h
    cases h
    exact ⟨fun k hk => Catalog.get?_of_dropDatabase h' k fun he => hk (congrArg some he),
      nofun, nofun⟩
  | useDatabase name =>
    obtain ⟨ch', h', h⟩ := bind_eq_ok_iff.1 h
    cases h
    have hd := (Catalog.useDatabase_eq_ok h').1
    exact ⟨fun k _ => congrArg (NameMap.get? · k) hd, nofun, nofun⟩
  | showDatabases =>
    cases h
    exact .refl _ c
  | createTable name specs =>
    obtain ⟨columns, -, h⟩ := bind_eq_ok_iff.1 h
    obtain ⟨ch', h', h⟩ := bind_eq_ok_iff.1 h
    cases h
    obtain ⟨d, hd, h'⟩ := bind_eq_ok_iff.1 h'
    obtain ⟨d', hd', h'⟩ := bind_eq_ok_iff.1 h'
    cases h'
    exact Catalog.frame_putCurrent hd rfl (Database.frame_createTable hd')
  | dropTable name =>
    obtain ⟨ch', h', h⟩ := bind_eq_ok_iff.1 h
    cases h
    obtain ⟨d, hd, h'⟩ := bind_eq_ok_iff.1 h'
    obtain ⟨r, hr, h'⟩ := bind_eq_ok_iff.1 h'
    cases h'
    exact Catalog.frame_putCurrent hd rfl (Database.frame_dropTable hr)
  | showTables =>
    obtain ⟨d, -, h⟩ := bind_eq_ok_iff.1 h
    cases h
    exact .refl _ c
  | insert table values =>
    refine frame_changeTable (fun t r hr => ?_) h rfl rfl
    obtain ⟨t', hi, rfl⟩ := map_eq_ok_iff.1 hr
    exact Table.name_of_insert hi
  | select table columns condition =>
    obtain ⟨d, -, h⟩ := bind_eq_ok_iff.1 h
    obtain ⟨t, -, h⟩ := bind_eq_ok_iff.1 h
    obtain ⟨r, -, h⟩ := bind_eq_ok_iff.1 h
    cases h
    exact .refl _ c
  | update table assignments condition =>
    exact frame_changeTable (fun t r hr => Table.name_of_update hr) h rfl rfl
  | delete table condition =>
    refine frame_changeTable (fun t r hr => ?_) h rfl rfl
    obtain ⟨r', hd, rfl⟩ := map_eq_ok_iff.1 hr
    exact Table.name_of_delete hd
  | help =>
    cases h
    exact .refl _ c

theorem call_of_isPassive (hs : statement.isPassive = true) (h : statement.run c = .ok ch) :
    ch.call = none := by
  cases statement with
  | useDatabase name =>
    obtain ⟨ch', h', h⟩ := bind_eq_ok_iff.1 h
    cases h
    exact (Catalog.useDatabase_eq_ok h').2
  | showDatabases =>
    cases h
    rfl
  | showTables =>
    obtain ⟨d, -, h⟩ := bind_eq_ok_iff.1 h
    cases h
    rfl
  | select table columns condition =>
    obtain ⟨d, -, h⟩ := bind_eq_ok_iff.1 h
    obtain ⟨t, -, h⟩ := bind_eq_ok_iff.1 h
    obtain ⟨r, -, h⟩ := bind_eq_ok_iff.1 h
    cases h
    rfl
  | help =>
    cases h
    rfl
  | _ => cases hs

/-- Work on one table that comes to a reply is stored unless it is work on no row. -/
theorem changeTable_eq_ok {name : String} {act : Table → Except Error (Table × Except Error Nat)}
    {reply : Table → Nat → Reply} {answer : Reply} (h : changeTable c name act reply = .ok ch)
    (ha : ch.result = .ok answer) :
    ∃ t count, answer = reply t count ∧ ch.call = if count = 0 then none else c.saveCall := by
  obtain ⟨d, -, h⟩ := bind_eq_ok_iff.1 h
  obtain ⟨t, -, h⟩ := bind_eq_ok_iff.1 h
  obtain ⟨⟨t', outcome⟩, -, h⟩ := bind_eq_ok_iff.1 h
  cases outcome with
  | error e =>
    cases h
    cases ha
  | ok count =>
    cases h
    cases ha
    exact ⟨t, count, rfl, rfl⟩

end Sql.Statement

/-- The answer to a change of rows that found no row to change. -/
def Reply.isIdle : Reply → Bool
  | updated n => n == 0
  | deleted n => n == 0
  | _ => false

namespace Sql.Statement

variable {c : Catalog} {statement : Statement} {ch : Change (Except Error Reply)}

theorem call_of_isIdle (h : statement.run c = .ok ch) {answer : Reply}
    (ha : ch.result = .ok answer) (hi : answer.isIdle = true) : ch.call = none := by
  cases statement with
  | createDatabase name =>
    obtain ⟨ch', h', h⟩ := bind_eq_ok_iff.1 h
    cases h
    cases ha
    cases hi
  | dropDatabase name =>
    obtain ⟨ch', h', h⟩ := bind_eq_ok_iff.1 h
    cases h
    cases ha
    cases hi
  | createTable name specs =>
    obtain ⟨columns, -, h⟩ := bind_eq_ok_iff.1 h
    obtain ⟨ch', h', h⟩ := bind_eq_ok_iff.1 h
    cases h
    cases ha
    cases hi
  | dropTable name =>
    obtain ⟨ch', h', h⟩ := bind_eq_ok_iff.1 h
    cases h
    cases ha
    cases hi
  | insert table values =>
    obtain ⟨t, count, rfl, -⟩ := changeTable_eq_ok h ha
    cases hi
  | update table assignments condition =>
    obtain ⟨t, count, rfl, hc⟩ := changeTable_eq_ok h ha
    exact hc.trans (if_pos (by simpa [Reply.isIdle] using hi))
  | delete table condition =>
    obtain ⟨t, count, rfl, hc⟩ := changeTable_eq_ok h ha
    exact hc.trans (if_pos (by simpa [Reply.isIdle] using hi))
  | useDatabase name => exact call_of_isPassive rfl h
  | showDatabases => exact call_of_isPassive rfl h
  | showTables => exact call_of_isPassive rfl h
  | select table columns condition => exact call_of_isPassive rfl h
  | help => exact call_of_isPassive rfl h

end Sql.Statement

/-! One statement -/

namespace Catalog

variable {c c' : Catalog}

theorem Moves.databases_of_none (h : c.Moves c' none) : c'.databases = c.databases := by
  cases h with
  | stay => rfl
  | select _ => rfl

/-- The storage call of a move is for the database that the move changes. -/
theorem Moves.get?_of_ne {call : StorageCall} (h : c.Moves c' (some call)) {name : String}
    (hn : name ≠ call.name) : c'.databases.get? name = c.databases.get? name := by
  cases h with
  | put _ _ => exact NameMap.get?_insert_of_ne _ _ hn
  | drop _ => exact NameMap.get?_erase_of_ne _ hn

end Catalog

namespace Session

/-- From one state to the other there is one storage call at most. It comes last, and is for the
only database that can differ. -/
structure CallsOnce (s s' : Session) (made : List CallRecord) : Prop where
  calls : s'.storage.calls = s.storage.calls ++ made
  length : made.length ≤ 1
  last : ∀ r ∈ made, s' = (Session.call ⟨s'.catalog, s.storage⟩ r.call).1
  others : ∀ r ∈ made, ∀ name, name ≠ r.call.name →
    s'.catalog.databases.get? name = s.catalog.databases.get? name
  unchanged : made = [] → s'.storage = s.storage ∧ s'.catalog.databases = s.catalog.databases

theorem CallsOnce.refl (s : Session) : s.CallsOnce s [] :=
  ⟨(List.append_nil _).symm, by simp, nofun, nofun, fun _ => ⟨rfl, rfl⟩⟩

theorem CallsOnce.get?_of_forall_ne {s s' : Session} {made : List CallRecord}
    (h : s.CallsOnce s' made) {name : String} (hn : ∀ r ∈ made, r.call.name ≠ name) :
    s'.catalog.databases.get? name = s.catalog.databases.get? name := by
  cases made with
  | nil => rw [(h.unchanged rfl).2]
  | cons r made =>
    have hr : r ∈ r :: made := List.mem_cons_self
    exact h.others r hr name (hn r hr).symm

theorem callsOnce_commit {α : Type} {s : Session} {ch : Change α}
    (hm : s.catalog.Moves ch.catalog ch.call) :
    ∃ made, s.CallsOnce (s.commit ch).1 made ∧ (ch.call = none → made = []) := by
  obtain ⟨c, call, a⟩ := ch
  cases call with
  | none =>
    refine ⟨[], ⟨(List.append_nil _).symm, by simp, nofun, nofun, fun _ => ⟨rfl, ?_⟩⟩, fun _ => rfl⟩
    exact hm.databases_of_none
  | some call =>
    obtain ⟨outcome, ho⟩ := call_of_moves hm
    have hs : (s.commit ⟨c, some call, a⟩).1 = ⟨c, (s.storage.settle call outcome).1⟩ :=
      congrArg Prod.fst ho
    rw [hs]
    obtain ⟨r, hr, hcalls⟩ : ∃ r : CallRecord, r.call = call ∧
        (s.storage.settle call outcome).1.calls = s.storage.calls ++ [r] := by
      cases outcome <;> exact ⟨_, rfl, rfl⟩
    refine ⟨[r], ⟨hcalls, le_rfl, fun r' h => ?_, fun r' h name hn => ?_, nofun⟩, nofun⟩
    · obtain rfl := List.mem_singleton.1 h
      rw [hr, ho]
    · obtain rfl := List.mem_singleton.1 h
      exact hm.get?_of_ne (hr ▸ hn)

theorem callsOnce_execute {s : Session} (hc : s.catalog.WellFormed) (text : String) :
    ∃ made, s.CallsOnce (s.execute text).1 made := by
  rcases execute_cases hc text with ⟨e, -, hr⟩ | ⟨c, call, answer, hm, hr⟩
  · rw [hr]
    exact ⟨[], .refl s⟩
  · rw [hr]
    let ch : Change Reply := ⟨c, call, answer⟩
    have hm' : s.catalog.Moves ch.catalog ch.call := hm
    obtain ⟨made, h, -⟩ := callsOnce_commit hm'
    exact ⟨made, h⟩

/-- What is answered is what the change has for an answer. -/
theorem result_of_commit {s : Session} {ch : Change (Except Error Reply)} {answer : Reply}
    (h : (s.commit ch).2.bind id = .ok answer) : ch.result = .ok answer := by
  obtain ⟨c, call, result⟩ := ch
  cases call with
  | none => exact h
  | some call =>
    obtain ⟨result', hr, h⟩ := bind_eq_ok_iff.1 h
    obtain ⟨-, -, rfl⟩ := map_eq_ok_iff.1 hr
    exact h

end Session

namespace Connection

/-- In every state that a run comes to, a statement makes one storage call at most, after which it
changes nothing and which is for the only database that it can have changed; without a call all
databases are as before. It leaves everything but what it is about, and makes no call if it is one
that only reads or has found no row to change. -/
theorem execute_framed {storage : Storage} {s : Session} (hs : Reaches storage s) (text : String) :
    ∃ made, s.CallsOnce (s.execute text).1 made ∧
      ∀ statement, Statement.parse text = .ok statement →
        s.catalog.Frame statement (s.execute text).1.catalog ∧
        (statement.isPassive = true → made = []) ∧
        ∀ answer, (s.execute text).2 = .ok answer → answer.isIdle = true → made = [] := by
  cases hp : Statement.parse text with
  | error e =>
    have he : s.execute text = (s, .error (.ofSyntax e)) := by rw [Session.execute, hp]
    rw [he]
    exact ⟨[], .refl s, nofun⟩
  | ok statement =>
    cases hr : statement.run s.catalog with
    | error e =>
      have he : s.execute text = (s, .error e) := by
        rw [Session.execute, hp]
        dsimp only [Session.change]
        rw [hr]
        rfl
      rw [he]
      refine ⟨[], .refl s, fun statement' h => ?_⟩
      exact ⟨.refl _ _, fun _ => rfl, nofun⟩
    | ok ch =>
      have he : s.execute text = ((s.commit ch).1, (s.commit ch).2.bind id) := by
        rw [Session.execute, hp]
        dsimp only [Session.change]
        rw [hr]
      rw [he]
      obtain ⟨made, hm, hnone⟩ := Session.callsOnce_commit (Statement.run_moves hs.wellFormed hr).1
      refine ⟨made, hm, fun statement' h => ?_⟩
      cases h
      refine ⟨?_, fun h => hnone (Statement.call_of_isPassive h hr), fun answer ha hi => hnone ?_⟩
      · rw [Session.catalog_commit]
        exact Statement.frame_run hr
      · exact Statement.call_of_isIdle hr (Session.result_of_commit ha) hi

/-- Two databases, with two tables in the selected one. -/
def tablesSteps : List (Faults × Action) :=
  [({}, .reopen),
    ({}, .session (.execute "CREATE DATABASE d;")),
    ({}, .session (.execute "CREATE DATABASE e;")),
    ({}, .session (.execute "USE d;")),
    ({}, .session (.execute "CREATE TABLE t (a INTEGER);")),
    ({}, .session (.execute "CREATE TABLE u (a STRING);"))]

theorem current_tablesSteps :
    ((closed { store := .memory .empty }).run tablesSteps).session?.map (fun s =>
      (s.catalog.selected, s.catalog.current.toOption.map Database.tableNames)) =
      some (some "d", some ["t", "u"]) := by
  decide +kernel

theorem execute_framed_of_tablesSteps :
    ∃ s, (closed { store := .memory .empty }).run tablesSteps = .opened s ∧
      s.catalog.current.toOption.map Database.tableNames = some ["t", "u"] ∧
      ∃ made, s.CallsOnce (s.execute "DROP TABLE t;").1 made ∧
        s.catalog.Frame (.dropTable "t") (s.execute "DROP TABLE t;").1.catalog := by
  have hc := current_tablesSteps
  cases hs : (closed { store := .memory .empty }).run tablesSteps with
  | closed storage =>
    rw [hs] at hc
    cases hc
  | opened s =>
    rw [hs] at hc
    obtain ⟨made, hm, hf⟩ := execute_framed ⟨tablesSteps, hs⟩ "DROP TABLE t;"
    exact ⟨s, rfl, (Prod.mk.inj (Option.some.inj hc)).2, made, hm, (hf (.dropTable "t") rfl).1⟩

end Connection

end TableStore

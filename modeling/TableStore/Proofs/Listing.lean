import TableStore.Proofs.Bytes
import TableStore.Proofs.History
import TableStore.Proofs.Mirror
import TableStore.Proofs.Reopening

/-!
# Listings

What is listed after a run is what its history says: every statement that succeeds makes the entry
that it is named for, and nothing else makes one.
-/
namespace TableStore

open Sql

theorem Database.map_name_eraseP (name : String) (ts : List Table) :
    (ts.eraseP fun t => t.name == name).map Table.name = (ts.map Table.name).erase name := by
  induction ts with
  | nil => rfl
  | cons t ts ih =>
    rw [List.eraseP_cons, List.map_cons, List.erase_cons]
    cases t.name == name with
    | true => rfl
    | false => exact congrArg (t.name :: ·) ih

theorem Database.WellFormed.tableNames_dropTable {d : Database} (hd : d.WellFormed) {name : String}
    {r : Database × Table} (h : d.dropTable name = .ok r) :
    r.1.tableNames = d.tableNames.filter (· ≠ Text.trim name) := by
  obtain ⟨t, ht, h⟩ := bind_eq_ok_iff.1 h
  cases h
  rw [Database.tableNames, Database.map_name_eraseP, (Database.table_eq_ok ht).2]
  refine (hd.nodup.erase_eq_filter _).trans (List.filter_congr fun u _ => ?_)
  exact Bool.eq_iff_iff.2 (by simp)

/-- What there is to list in a catalog. -/
def Catalog.listing (c : Catalog) : Listing :=
  ⟨fun n => (c.databases.get? n).map Database.tableNames, c.selected⟩

/-- The entry of a statement that succeeds. -/
def History.Entry.ofStatement? (selected : Option String) : Statement → Option History.Entry
  | .createDatabase name => some (.databaseCreated (Text.trim name))
  | .dropDatabase name => some (.databaseDropped (Text.trim name))
  | .useDatabase name => some (.databaseSelected (Text.trim name))
  | .createTable name _ => selected.map (.tableCreated · (Text.trim name))
  | .dropTable name => selected.map (.tableDropped · (Text.trim name))
  | _ => none

/-- The listing with the entry, if there is one. -/
def Listing.recordAny (l : Listing) (x : Option History.Entry) : Listing := x.elim l l.record

theorem Listing.Follows.recordAny {l : Listing} {past : List History.Entry} (h : l.Follows past)
    (x : Option History.Entry) : (l.recordAny x).Follows (past ++ x.toList) := by
  cases x with
  | none =>
    rw [Option.toList_none, List.append_nil]
    exact h
  | some x => exact h.record x

namespace Catalog

open History

variable {c : Catalog}

theorem listing_insert (dbs : NameMap Database) (selected : Option String) (n : String)
    (d : Database) : listing ⟨dbs.insert n d, selected⟩ =
      ⟨Function.update (listing ⟨dbs, selected⟩).tables n (some d.tableNames), selected⟩ := by
  refine congrArg (Listing.mk · selected) (funext fun k => ?_)
  by_cases hk : k = n
  · rw [hk, NameMap.get?_insert_self, Function.update_self, Option.map_some]
  · rw [NameMap.get?_insert_of_ne _ _ hk, Function.update_of_ne hk, listing]

theorem listing_erase (dbs : NameMap Database) (selected selected' : Option String) (n : String) :
    listing ⟨dbs.erase n, selected'⟩ =
      ⟨Function.update (listing ⟨dbs, selected⟩).tables n none, selected'⟩ := by
  refine congrArg (Listing.mk · selected') (funext fun k => ?_)
  by_cases hk : k = n
  · rw [hk, NameMap.get?_erase_self, Function.update_self, Option.map_none]
  · rw [NameMap.get?_erase_of_ne _ hk, Function.update_of_ne hk, listing]

theorem listing_createDatabase {name : String} {ch : Change String}
    (h : c.createDatabase name = .ok ch) :
    ch.catalog.listing = c.listing.record (.databaseCreated (Text.trim name)) := by
  obtain ⟨d, hd, h⟩ := bind_eq_ok_iff.1 h
  dsimp only at h
  split at h
  · cases h
  · split at h
    · cases h
    · cases h
      obtain ⟨n, hn, hd⟩ := bind_eq_ok_iff.1 hd
      obtain ⟨rfl, -⟩ := properName_eq_ok hn
      cases hd
      exact listing_insert _ _ _ _

theorem listing_dropDatabase {name : String} {ch : Change Unit}
    (h : c.dropDatabase name = .ok ch) :
    ch.catalog.listing = c.listing.record (.databaseDropped (Text.trim name)) := by
  obtain ⟨d, -, h⟩ := bind_eq_ok_iff.1 h
  cases h
  exact listing_erase _ _ _ _

theorem listing_useDatabase {name : String} {ch : Change Unit} (h : c.useDatabase name = .ok ch) :
    ch.catalog.listing = c.listing.record (.databaseSelected (Text.trim name)) := by
  obtain ⟨d, -, h⟩ := bind_eq_ok_iff.1 h
  cases h
  rfl

/-- Another database in the place of the selected one. -/
theorem listing_putCurrent {d : Database} (hd : c.current = .ok d) (d' : Database) :
    ∃ n, c.selected = some n ∧ c.listing.tables n = some d.tableNames ∧
      (c.putCurrent d').listing =
        { c.listing with tables := Function.update c.listing.tables n (some d'.tableNames) } := by
  obtain ⟨n, hn, hg⟩ := current_eq_ok hd
  refine ⟨n, hn, congrArg (Option.map _) hg, ?_⟩
  rw [putCurrent, hn]
  dsimp only
  rw [listing_insert, ← hn]
  rfl

theorem listing_createTable {name : String} {columns : List Column} {ch : Change String}
    (h : c.createTable name columns = .ok ch) : ∃ n, c.selected = some n ∧
      ch.catalog.listing = c.listing.record (.tableCreated n (Text.trim name)) := by
  obtain ⟨d, hd, h⟩ := bind_eq_ok_iff.1 h
  obtain ⟨d', hd', h⟩ := bind_eq_ok_iff.1 h
  cases h
  obtain ⟨n, hn, ht, hl⟩ := listing_putCurrent hd d'
  refine ⟨n, hn, hl.trans ?_⟩
  obtain ⟨t, htable, h⟩ := bind_eq_ok_iff.1 hd'
  have hname := Table.name_of_make htable
  dsimp only at h
  split at h
  · cases h
  · rename_i hnew
    cases h
    have hf : d.tableNames.filter (· ≠ Text.trim name) = d.tableNames := by
      rw [List.filter_eq_self]
      intro u hu
      refine decide_eq_true fun he => hnew ?_
      rw [hname, ← he]
      exact hu
    rw [Listing.record, ht, Option.map_some, hf, ← hname]
    simp [Database.tableNames]

theorem listing_dropTable (hc : c.WellFormed) {name : String} {ch : Change (String × String)}
    (h : c.dropTable name = .ok ch) : ∃ n, c.selected = some n ∧
      ch.catalog.listing = c.listing.record (.tableDropped n (Text.trim name)) := by
  obtain ⟨d, hd, h⟩ := bind_eq_ok_iff.1 h
  obtain ⟨⟨d', t⟩, hd', h⟩ := bind_eq_ok_iff.1 h
  cases h
  obtain ⟨n, hn, ht, hl⟩ := listing_putCurrent hd d'
  refine ⟨n, hn, hl.trans ?_⟩
  rw [Listing.record, ht, Option.map_some, ← (hc.current hd).tableNames_dropTable hd']

end Catalog

namespace Sql.Statement

open History

variable {c : Catalog} {x : Statement} {ch : Change (Except Error Reply)}

/-- Work on the rows of a table changes nothing that is listed. -/
theorem listing_changeTable {name : String}
    {act : Table → Except Error (Table × Except Error Nat)} {reply : Table → Nat → Reply}
    (h : changeTable c name act reply = .ok ch) : ch.catalog.listing = c.listing := by
  obtain ⟨d, hd, h⟩ := bind_eq_ok_iff.1 h
  obtain ⟨t, -, h⟩ := bind_eq_ok_iff.1 h
  obtain ⟨⟨t', outcome⟩, -, h⟩ := bind_eq_ok_iff.1 h
  have hl : (c.putTable d t').listing = c.listing := by
    obtain ⟨n, -, ht, hl⟩ := Catalog.listing_putCurrent hd (d.replaceTable t')
    rw [Catalog.putTable, hl, Database.tableNames_replaceTable, ← ht, Function.update_eq_self]
  cases outcome with
  | error e =>
    cases h
    exact hl
  | ok count =>
    cases h
    exact hl

/-- What a statement changes in what is listed is its entry. -/
theorem listing_run (hc : c.WellFormed) (h : x.run c = .ok ch) :
    ch.catalog.listing = c.listing.recordAny (Entry.ofStatement? c.selected x) := by
  cases x with
  | createDatabase name =>
    obtain ⟨ch', h', h⟩ := bind_eq_ok_iff.1 h
    cases h
    exact Catalog.listing_createDatabase h'
  | dropDatabase name =>
    obtain ⟨ch', h', h⟩ := bind_eq_ok_iff.1 h
    cases h
    exact Catalog.listing_dropDatabase h'
  | useDatabase name =>
    obtain ⟨ch', h', h⟩ := bind_eq_ok_iff.1 h
    cases h
    exact Catalog.listing_useDatabase h'
  | createTable name specs =>
    obtain ⟨columns, -, h⟩ := bind_eq_ok_iff.1 h
    obtain ⟨ch', h', h⟩ := bind_eq_ok_iff.1 h
    cases h
    obtain ⟨n, hn, hl⟩ := Catalog.listing_createTable h'
    rw [Entry.ofStatement?, hn]
    exact hl
  | dropTable name =>
    obtain ⟨ch', h', h⟩ := bind_eq_ok_iff.1 h
    cases h
    obtain ⟨n, hn, hl⟩ := Catalog.listing_dropTable hc h'
    rw [Entry.ofStatement?, hn]
    exact hl
  | showDatabases =>
    cases h
    rfl
  | showTables =>
    obtain ⟨d, -, h⟩ := bind_eq_ok_iff.1 h
    cases h
    rfl
  | insert name values => exact listing_changeTable h
  | select name columns condition =>
    obtain ⟨d, -, h⟩ := bind_eq_ok_iff.1 h
    obtain ⟨t, -, h⟩ := bind_eq_ok_iff.1 h
    obtain ⟨r, -, h⟩ := bind_eq_ok_iff.1 h
    cases h
    rfl
  | update name assignments condition => exact listing_changeTable h
  | delete name condition => exact listing_changeTable h
  | help =>
    cases h
    rfl

end Sql.Statement

theorem Storage.calls_settle_prefix (st : Storage) (call : StorageCall)
    (outcome : Except StorageError Store) : st.calls <+: (st.settle call outcome).1.calls := by
  cases outcome <;> exact List.prefix_append _ _

namespace Session

open History

variable {s : Session} {a : Action} {text : String}

/-- The statement that a call is to run, if its text is one. -/
def Action.statement? : Action → Option Statement
  | .execute text => (Statement.parse text).toOption
  | .executeLine line => if isIgnorable line then none else (Statement.parse line).toOption
  | .flush => none

/-- What a call has done to what is listed, if it succeeds. -/
def recorded? (s : Session) (a : Action) : Option Entry :=
  match s.answer a with
  | .ok _ => a.statement?.bind (Entry.ofStatement? s.selected)
  | .error _ => none

/-- What the calls of a run have done to what is listed, from the first to the last. -/
def history (s : Session) : List (Faults × Action) → List Entry
  | [] => []
  | (faults, a) :: steps =>
    ((s.setFaults faults).recorded? a).toList ++ ((s.setFaults faults).act a).history steps

theorem listing_execute (hc : s.catalog.WellFormed) (hr : (s.execute text).1.storage.Succeeds) :
    (s.execute text).1.catalog.listing =
      s.catalog.listing.recordAny (s.recorded? (.execute text)) := by
  cases ha : (s.execute text).2 with
  | error e =>
    have he : s.recorded? (.execute text) = none := by rw [recorded?, answer, ha, Except.map]
    rw [he]
    rcases execute_error hc ha with ⟨-, hs⟩ | ⟨e', call, c, -, hs⟩
    · rw [hs]
      rfl
    · rw [hs] at hr
      cases hr ⟨call, true⟩ (List.mem_append_right _ (List.mem_singleton_self _))
  | ok reply =>
    have he : s.recorded? (.execute text) =
        (Statement.parse text).toOption.bind (Entry.ofStatement? s.selected) := by
      rw [recorded?, answer, ha, Except.map, Action.statement?]
    rw [he]
    unfold execute at ha ⊢
    cases hp : Statement.parse text with
    | error e =>
      rw [hp] at ha
      cases ha
    | ok x =>
      rw [hp] at ha
      dsimp only [change] at ha ⊢
      cases hx : x.run s.catalog with
      | error e =>
        rw [hx] at ha
        cases ha
      | ok ch =>
        dsimp only
        rw [catalog_commit]
        exact Statement.listing_run hc hx

theorem listing_act (hc : s.catalog.WellFormed) (hr : (s.act a).storage.Succeeds) :
    (s.act a).catalog.listing = s.catalog.listing.recordAny (s.recorded? a) := by
  cases a with
  | execute text => exact listing_execute hc hr
  | executeLine line =>
    unfold act recorded? answer executeLine at *
    rw [Action.statement?]
    dsimp only at hr ⊢
    split at hr
    · rename_i hi
      rw [if_pos hi, if_pos hi]
      rfl
    · rename_i hi
      rw [if_neg hi, if_neg hi]
      exact listing_execute hc hr
  | flush =>
    have he : s.recorded? .flush = none := by
      rw [recorded?]
      split <;> rfl
    rw [he]
    rfl

theorem invariant_calls (made : List CallRecord) : Invariant fun _ st => made <+: st.calls where
  setFaults h _ := h
  save h _ _ := h.trans (Storage.calls_settle_prefix _ _ _)
  remove h _ := h.trans (Storage.calls_settle_prefix _ _ _)

theorem succeeds_of_run (hc : s.catalog.WellFormed) {steps : List (Faults × Action)}
    (h : (s.run steps).storage.Succeeds) : s.storage.Succeeds := fun r hr =>
  h r (((invariant_calls s.storage.calls).run hc (List.prefix_refl _) steps).2.subset hr)

theorem follows_run (hc : s.catalog.WellFormed) {past : List Entry}
    (h : s.catalog.listing.Follows past) (steps : List (Faults × Action))
    (hr : (s.run steps).storage.Succeeds) :
    (s.run steps).catalog.listing.Follows (past ++ s.history steps) := by
  induction steps generalizing s past with
  | nil =>
    rw [history, List.append_nil]
    exact h
  | cons x steps ih =>
    obtain ⟨faults, a⟩ := x
    have hw : ((s.setFaults faults).act a).catalog.WellFormed :=
      wellFormed_act (s := s.setFaults faults) hc a
    rw [history, ← List.append_assoc]
    refine ih hw ?_ hr
    rw [listing_act (s := s.setFaults faults) hc (succeeds_of_run hw hr)]
    exact h.recordAny _

theorem follows_open {store : Store} {reader : NumeralReader} {faults : Faults}
    (he : store.databases reader = []) {s₀ : Session}
    (ho : Session.open { store := store, faults := faults, reader := reader } = .ok s₀) :
    s₀.catalog.listing.Follows [] := by
  obtain ⟨-, rfl⟩ := open_eq_ok ho
  have hn : ∀ e, ¬Holds [] e := by
    rintro e ⟨before, after, h, -⟩
    simp at h
  rw [he]
  refine ⟨fun n => ⟨iff_of_false nofun (hn _), nofun, nofun, nofun⟩, fun n => ?_⟩
  exact iff_of_false nofun (hn _)

theorem execute_showDatabases (s : Session) (hp : Statement.parse text = .ok .showDatabases) :
    s.execute text = (s, .ok (.databases s.catalog.names)) := by
  rw [execute, hp]
  rfl

theorem execute_showTables_none (s : Session) (hp : Statement.parse text = .ok .showTables)
    (hs : s.selected = none) : s.execute text = (s, .error (.ofValidation .noSelection)) := by
  have hc : s.catalog.current = .error (.ofValidation .noSelection) := by
    rw [Catalog.current, show s.catalog.selected = none from hs]
    rfl
  rw [execute, hp]
  dsimp only [change, Statement.run]
  rw [hc]
  rfl

theorem execute_showTables (hc : s.catalog.WellFormed) {n : String} (hs : s.selected = some n) :
    ∃ tables, s.catalog.listing.tables n = some tables ∧ ∀ text,
      Statement.parse text = .ok .showTables → s.execute text = (s, .ok (.tables n tables)) := by
  obtain ⟨d, hd⟩ := hc.selected n hs
  have hcur : s.catalog.current = .ok d := by
    rw [Catalog.current, show s.catalog.selected = some n from hs, Option.bind_some, hd]
  refine ⟨d.tableNames, congrArg (Option.map _) hd, fun text hp => ?_⟩
  rw [execute, hp]
  dsimp only [change, Statement.run]
  rw [hcur, ← (hc.databases n d hd).1]
  rfl

/-- After every run of statements from a storage without databases, of which no storage call was
refused, `SHOW DATABASES` gives in the order of their bytes the names whose last entry is a
creation; a database is selected that the last selection was of, unless it was dropped since; and
`SHOW TABLES` gives the tables of that database whose last entry since it was created is a creation,
each once, in the order of these entries. -/
theorem listings_follow_history {store : Store} {reader : NumeralReader} {faults : Faults}
    (he : store.databases reader = []) {s₀ : Session}
    (ho : Session.open { store := store, faults := faults, reader := reader } = .ok s₀)
    (steps : List (Faults × Action)) {s : Session} (hs : s₀.run steps = s)
    (hr : s.storage.Succeeds) {past : List Entry} (hp : s₀.history steps = past) :
    (∃ names,
      (∀ text, Statement.parse text = .ok .showDatabases →
        s.execute text = (s, .ok (.databases names))) ∧
      (names.map Text.bytes).Pairwise (· < ·) ∧
      ∀ n, n ∈ names ↔ Holds past (.databaseCreated n)) ∧
    (∀ n, s.selected = some n ↔ Holds past (.databaseSelected n)) ∧
    (s.selected = none → ∀ text, Statement.parse text = .ok .showTables →
      s.execute text = (s, .error (.ofValidation .noSelection))) ∧
    ∀ n, s.selected = some n → ∃ tables,
      (∀ text, Statement.parse text = .ok .showTables →
        s.execute text = (s, .ok (.tables n tables))) ∧
      tables.Nodup ∧ (∀ t, t ∈ tables ↔ Holds past (.tableCreated n t)) ∧
      tables.Pairwise fun t u => HoldInOrder past (.tableCreated n t) (.tableCreated n u) := by
  have hc₀ := wellFormed_open ho
  subst hs hp
  have hc : (s₀.run steps).catalog.WellFormed :=
    ((invariant_calls []).run hc₀ List.nil_prefix steps).1
  have hf := follows_run hc₀ (follows_open he ho) steps hr
  rw [List.nil_append] at hf
  refine ⟨⟨_, fun text hp => execute_showDatabases _ hp, ?_, fun n => ?_⟩, hf.selected,
    fun hs text hp => execute_showTables_none _ hp hs, fun n hs => ?_⟩
  · exact List.pairwise_map.2 ((s₀.run steps).catalog.databases.sorted.imp
      Text.bytes_lt_bytes_iff.2)
  · rw [← (hf.lists n).exists_iff, Catalog.names, NameMap.mem_keys_iff, Catalog.listing,
      Option.isSome_map, Option.isSome_iff_exists]
  · obtain ⟨tables, ht, hshow⟩ := execute_showTables hc hs
    have hl := hf.lists n
    exact ⟨tables, hshow, hl.nodup tables ht, hl.mem_iff tables ht, hl.inOrder tables ht⟩

/-- A table that is dropped and created again goes behind the one created before. -/
def renewedSteps : List (Faults × Action) :=
  [({}, .execute "CREATE DATABASE d;"), ({}, .executeLine "USE d;"),
    ({}, .execute "CREATE TABLE t (a INTEGER);"), ({}, .execute "CREATE TABLE u (a INTEGER);"),
    ({}, .execute "DROP TABLE t;"), ({}, .execute "CREATE TABLE t (b STRING);"),
    ({}, .execute "CREATE DATABASE d;"), ({}, .executeLine "CREATE DATABASE c;")]

def renewedHistory : List Entry :=
  [.databaseCreated "d", .databaseSelected "d", .tableCreated "d" "t", .tableCreated "d" "u",
    .tableDropped "d" "t", .tableCreated "d" "t", .databaseCreated "c"]

theorem answers_renewedSteps :
    blank.history renewedSteps = renewedHistory ∧ (blank.run renewedSteps).storage.Succeeds ∧
      (blank.run renewedSteps).selected = some "d" ∧
      ((blank.run renewedSteps).execute "SHOW DATABASES;").2 = .ok (.databases ["c", "d"]) ∧
      ((blank.run renewedSteps).execute "SHOW TABLES;").2 = .ok (.tables "d" ["u", "t"]) := by
  decide +kernel

theorem listings_follow_renewedHistory :
    Session.open { store := .directory (.holding ["data"] .empty) } = .ok blank ∧
      blank.history renewedSteps = renewedHistory ∧ (blank.run renewedSteps).storage.Succeeds ∧
      ((blank.run renewedSteps).execute "SHOW DATABASES;").2 = .ok (.databases ["c", "d"]) ∧
      (∀ n, n ∈ ["c", "d"] ↔ Holds renewedHistory (.databaseCreated n)) ∧
      ((blank.run renewedSteps).execute "SHOW TABLES;").2 = .ok (.tables "d" ["u", "t"]) ∧
      HoldInOrder renewedHistory (.tableCreated "d" "u") (.tableCreated "d" "t") := by
  obtain ⟨hp, hr, hs, hdbs, hts⟩ := answers_renewedSteps
  have ho : Session.open { store := .directory (.holding ["data"] .empty) } = .ok blank := rfl
  obtain ⟨⟨names, hnames, -, hmem⟩, -, -, htables⟩ :=
    listings_follow_history rfl ho renewedSteps rfl hr hp
  obtain ⟨tables, hshow, -, -, horder⟩ := htables "d" hs
  have hpd : Statement.parse "SHOW DATABASES;" = .ok .showDatabases := by decide +kernel
  have hpt : Statement.parse "SHOW TABLES;" = .ok .showTables := by decide +kernel
  rw [hnames _ hpd] at hdbs
  rw [hshow _ hpt] at hts
  cases hdbs
  cases hts
  refine ⟨ho, hp, hr, by rw [hnames _ hpd], hmem, by rw [hshow _ hpt], ?_⟩
  exact (List.pairwise_cons.1 horder).1 "t" (List.mem_singleton_self _)

end Session

end TableStore

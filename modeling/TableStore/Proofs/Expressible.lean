import TableStore.Proofs.Containment
import TableStore.Proofs.FaultIsolation
import TableStore.Proofs.Invariant
import TableStore.Proofs.Literals
import TableStore.Proofs.Parsing

/-!
# Expressible databases

A statement can only say words and texts without quotes, so these are all that comes into the
tables. What is in a table can therefore be said in a statement again.
-/
namespace TableStore

open Sql

/-! Printable statements -/

namespace Sql

namespace Statement

theorem isPrintable_createTable {name : String} {columns : List ColumnSpec}
    (h : (createTable name columns).IsPrintable) :
    IsWord name.toList ∧ ∀ c ∈ columns, IsWord c.name.toList := by
  have hl : ArePrintable (createTable name columns).lexemes := h.lexemes
  simpa [lexemes, body, ColumnSpec.lexemes] using hl

theorem isPrintable_insert_iff {table : String} {values : List Literal} :
    (insert table values).IsPrintable ↔ values ≠ [] ∧ IsWord table.toList ∧
      ∀ l ∈ values, (Lexeme.literal .listItem l).IsPrintable := by
  have hl : ArePrintable (insert table values).lexemes ↔ IsWord table.toList ∧
      ∀ l ∈ values, (Lexeme.literal .listItem l).IsPrintable := by
    simp [lexemes, body, valueLexemes]
  rw [← hl]
  exact ⟨fun h => ⟨h.items, h.lexemes⟩, fun h => ⟨h.2, h.1⟩⟩

theorem isPrintable_update {table : String} {assignments : List Assignment}
    {condition : Option Condition} (h : (update table assignments condition).IsPrintable) :
    ∀ a ∈ assignments, (Lexeme.literal .assignment a.value).IsPrintable := by
  have hl : ArePrintable (update table assignments condition).lexemes := h.lexemes
  obtain ⟨-, ha, -⟩ : IsWord table.toList ∧ (∀ a ∈ assignments, IsWord a.column.toList ∧
      (Lexeme.literal .assignment a.value).IsPrintable) ∧
      ArePrintable (Condition.lexemes condition) := by
    simpa [lexemes, body, Assignment.lexemes] using hl
  exact fun a hm => (ha a hm).2

theorem isPrintable_select {table column : String} {l : Literal} (ht : IsWord table.toList)
    (hc : IsWord column.toList) (hl : (Lexeme.literal .condition l).IsPrintable) :
    (select table none (some ⟨column, l⟩)).IsPrintable := by
  have hp : ArePrintable (select table none (some ⟨column, l⟩)).lexemes := by
    simp [lexemes, body, selectionLexemes, Condition.lexemes, ht, hc, hl]
  exact ⟨hp, trivial⟩

end Statement

theorem trim_of_isWord {s : String} (h : IsWord s.toList) : Text.trim s = s := by
  refine trim_eq_self_iff.2 ⟨?_, dropTrailingBlanks_of_isWord h⟩
  obtain ⟨c, cs, hc⟩ := List.exists_cons_of_ne_nil h.1
  rw [hc]
  exact skipBlanks_cons_of_not (isBlank_of_isWordChar (h.2 c (by simp [hc]))) cs

end Sql

/-! Rows and tables -/

/-- No value of the row has a quote in its text. -/
def Row.IsExpressible (r : Row) : Prop := ∀ cell ∈ r.cells, '"' ∉ cell.2.text.toList

/-- The names are words, and the rows have no quotes. -/
structure Table.IsExpressible (t : Table) : Prop where
  name : IsWord t.name.toList
  columns : ∀ c ∈ t.columns, IsWord c.name.toList
  rows : ∀ r ∈ t.rows, r.IsExpressible

def Database.IsExpressible (d : Database) : Prop := ∀ t ∈ d.tables, t.IsExpressible

section Reading

variable {reader : NumeralReader}

theorem Value.quote_notMem_of_readAs {v w : Value} (hv : '"' ∉ v.text.toList)
    (h : v.ReadAs reader w) : '"' ∉ w.text.toList := by
  cases v with
  | float x =>
    obtain ⟨y, -, hy, rfl⟩ := h
    exact quote_notMem_text hy nofun
  | _ =>
    cases h
    exact hv

/-- Numbers are read as numbers, whose texts have no quotes either. -/
theorem Database.IsExpressible.readAs {d e : Database} (hd : d.IsExpressible)
    (h : d.ReadAs reader e) : e.IsExpressible := by
  intro u hu
  obtain ⟨t, ht, hname, hcolumns, hrows⟩ := exists_of_forall₂ h.tables.flip hu
  refine ⟨hname ▸ (hd t ht).name, hcolumns ▸ (hd t ht).columns, fun r hr cell hcell => ?_⟩
  obtain ⟨r₀, hr₀, hcells⟩ := exists_of_forall₂ hrows.flip hr
  obtain ⟨cell₀, hcell₀, -, hread⟩ := exists_of_forall₂ (List.Forall₂.flip hcells) hcell
  exact Value.quote_notMem_of_readAs ((hd t ht).rows r₀ hr₀ cell₀ hcell₀) hread

end Reading

theorem Column.quote_notMem_of_convert {c : Column} {slot : Slot} {l : Literal} {w : Value}
    (hl : (Lexeme.literal slot l).IsPrintable) (h : c.convert l.value = .ok w) :
    '"' ∉ w.text.toList := by
  have hs := Column.stores_of_convert l.isFinite_value h
  refine Value.quote_notMem_text (DataType.isFinite_of_stores hs) ?_
  rintro s rfl
  obtain ⟨name, type⟩ := c
  cases type with
  | string =>
    cases l with
    | null => cases h
    | text s' =>
      cases h
      exact hl
  | _ => cases hs

namespace Row

theorem quote_notMem_setCell {column : String} {v : Value} (hv : '"' ∉ v.text.toList)
    {cells cells' : List (String × Value)} (hc : ∀ cell ∈ cells, '"' ∉ cell.2.text.toList)
    (h : setCell column v cells = some cells') : ∀ cell ∈ cells', '"' ∉ cell.2.text.toList := by
  induction cells generalizing cells' with
  | nil => cases h
  | cons cell cells ih =>
    obtain ⟨name, old⟩ := cell
    rw [List.forall_mem_cons] at hc
    unfold setCell at h
    split at h
    · cases h
      exact List.forall_mem_cons.2 ⟨hv, hc.2⟩
    · obtain ⟨cells', h', rfl⟩ := Option.map_eq_some_iff.1 h
      exact List.forall_mem_cons.2 ⟨hc.1, ih hc.2 h'⟩

end Row

namespace Table

theorem isExpressible_assign {values : List (Column × Value)}
    (hv : ∀ a ∈ values, '"' ∉ a.2.text.toList) {r : Row} (hr : r.IsExpressible) :
    (assign r values).1.IsExpressible := by
  induction values generalizing r with
  | nil => exact hr
  | cons a as ih =>
    obtain ⟨c, v⟩ := a
    rw [List.forall_mem_cons] at hv
    unfold assign
    split
    · rename_i r' hset
      refine ih hv.2 ?_
      unfold Row.set at hset
      split at hset
      · rename_i cells hcells
        cases hset
        exact Row.quote_notMem_setCell hv.1 hr hcells
      · cases hset
    · exact hr

theorem isExpressible_assignRows {values : List (Column × Value)}
    (hv : ∀ a ∈ values, '"' ∉ a.2.text.toList) (selects : Row → Bool) {rows : List Row}
    (hr : ∀ r ∈ rows, r.IsExpressible) :
    ∀ r ∈ (assignRows selects values rows).1, r.IsExpressible := by
  induction rows with
  | nil => simp [assignRows]
  | cons r rs ih =>
    rw [List.forall_mem_cons] at hr
    unfold assignRows
    split
    · have ha := isExpressible_assign hv hr.1
      split
      · rename_i h
        rw [h] at ha
        exact List.forall_mem_cons.2 ⟨ha, ih hr.2⟩
      · rename_i h
        rw [h] at ha
        exact List.forall_mem_cons.2 ⟨ha, hr.2⟩
    · exact List.forall_mem_cons.2 ⟨hr.1, ih hr.2⟩

theorem quote_notMem_resolveAssignments {t : Table} {assignments : List Assignment}
    (ha : ∀ a ∈ assignments, (Lexeme.literal .assignment a.value).IsPrintable)
    {known values : List (Column × Value)}
    (hk : ∀ a ∈ known, '"' ∉ a.2.text.toList)
    (h : t.resolveAssignments known assignments = .ok values) :
    ∀ a ∈ values, '"' ∉ a.2.text.toList := by
  induction assignments generalizing known with
  | nil =>
    cases h
    exact hk
  | cons a as ih =>
    rw [List.forall_mem_cons] at ha
    obtain ⟨c, -, h⟩ := bind_eq_ok_iff.1 h
    dsimp only at h
    split at h
    · cases h
    · obtain ⟨v, hv, h⟩ := bind_eq_ok_iff.1 h
      refine ih ha.2 (List.forall_mem_append.2 ⟨hk, ?_⟩) h
      simpa using Column.quote_notMem_of_convert ha.1 hv

theorem quote_notMem_makeCells (slot : Slot) {values : List (String × Value)}
    (hv : ∀ v ∈ values, ∃ l, (Lexeme.literal slot l).IsPrintable ∧ v.2 = l.value)
    {columns : List Column} {cells : List (String × Value)}
    (h : makeCells values columns = .ok cells) : ∀ cell ∈ cells, '"' ∉ cell.2.text.toList := by
  induction columns generalizing cells with
  | nil =>
    cases h
    simp
  | cons c cs ih =>
    obtain ⟨w, hw, h⟩ := bind_eq_ok_iff.1 h
    obtain ⟨cells', hcells, h⟩ := bind_eq_ok_iff.1 h
    cases h
    have hl : ∃ l, (Lexeme.literal slot l).IsPrintable ∧
        (values.lookup c.name).getD .null = l.value := by
      cases hf : values.lookup c.name with
      | none => exact ⟨.null, trivial, rfl⟩
      | some v =>
        obtain ⟨l₁, l₂, hl, -⟩ := List.lookup_eq_some_iff.1 hf
        exact hv (c.name, v) (by simp [hl])
    obtain ⟨l, hp, he⟩ := hl
    rw [he] at hw
    exact List.forall_mem_cons.2 ⟨Column.quote_notMem_of_convert hp hw, ih hcells⟩

theorem isExpressible_insert {t t' : Table} (ht : t.IsExpressible) {slot : Slot}
    {values : List Literal} (hv : ∀ l ∈ values, (Lexeme.literal slot l).IsPrintable)
    (h : t.insert values = .ok t') : t'.IsExpressible := by
  unfold insert at h
  split at h
  · obtain ⟨r, hr, h⟩ := bind_eq_ok_iff.1 h
    cases h
    obtain ⟨cells, hcells, hr⟩ := bind_eq_ok_iff.1 hr
    split at hr
    · cases hr
    · cases hr
      refine ⟨ht.name, ht.columns, List.forall_mem_append.2 ⟨ht.rows, ?_⟩⟩
      refine List.forall_mem_singleton.2 (quote_notMem_makeCells slot ?_ hcells)
      intro v hz
      obtain ⟨l, hl, he⟩ := List.mem_map.1 (List.of_mem_zip hz).2
      exact ⟨l, hv l hl, he.symm⟩
  · cases h

theorem isExpressible_update {t : Table} (ht : t.IsExpressible) {assignments : List Assignment}
    (ha : ∀ a ∈ assignments, (Lexeme.literal .assignment a.value).IsPrintable)
    {condition : Option Condition} {r : Table × Except Error Nat}
    (h : t.update assignments condition = .ok r) :
    r.1.IsExpressible := by
  obtain ⟨values, hv, h⟩ := bind_eq_ok_iff.1 h
  obtain ⟨selects, -, h⟩ := bind_eq_ok_iff.1 h
  cases h
  have hq := quote_notMem_resolveAssignments ha (by simp) hv
  exact ⟨ht.name, ht.columns, isExpressible_assignRows hq selects ht.rows⟩

theorem isExpressible_delete {t : Table} (ht : t.IsExpressible) {condition : Option Condition}
    {r : Table × Nat} (h : t.delete condition = .ok r) : r.1.IsExpressible := by
  obtain ⟨selects, -, h⟩ := bind_eq_ok_iff.1 h
  cases h
  exact ⟨ht.name, ht.columns, fun r hr => ht.rows r (List.mem_of_mem_filter hr)⟩

theorem isExpressible_make {name : String} {columns : List Column} (hn : IsWord name.toList)
    (hc : ∀ c ∈ columns, IsWord c.name.toList) {t : Table} (h : make name columns = .ok t) :
    t.IsExpressible := by
  obtain ⟨n, hp, h⟩ := bind_eq_ok_iff.1 h
  obtain ⟨rfl, -⟩ := properName_eq_ok hp
  rw [trim_of_isWord hn] at h
  dsimp only at h
  split at h
  · cases h
  · split at h
    · cases h
    · cases h
      exact ⟨hn, hc, by simp⟩

end Table

theorem Column.isWord_make {name : String} {type : DataType} {c : Column} (hn : IsWord name.toList)
    (h : Column.make name type = .ok c) : IsWord c.name.toList := by
  obtain ⟨n, hp, h⟩ := bind_eq_ok_iff.1 h
  obtain ⟨rfl, -⟩ := properName_eq_ok hp
  cases h
  rwa [trim_of_isWord hn]

/-! Databases -/

namespace Database

theorem isExpressible_make {name : String} {d : Database} (h : make name = .ok d) :
    d.IsExpressible := by
  obtain ⟨n, -, h⟩ := bind_eq_ok_iff.1 h
  cases h
  simp [IsExpressible]

theorem isExpressible_createTable {d d' : Database} (hd : d.IsExpressible) {name : String}
    {columns : List Column} (hn : IsWord name.toList)
    (hc : ∀ c ∈ columns, IsWord c.name.toList) (h : d.createTable name columns = .ok d') :
    d'.IsExpressible := by
  obtain ⟨t, ht, h⟩ := bind_eq_ok_iff.1 h
  dsimp only at h
  split at h
  · cases h
  · cases h
    refine List.forall_mem_append.2 ⟨hd, ?_⟩
    simpa using Table.isExpressible_make hn hc ht

theorem isExpressible_dropTable {d : Database} (hd : d.IsExpressible) {name : String}
    {r : Database × Table} (h : d.dropTable name = .ok r) : r.1.IsExpressible := by
  obtain ⟨t, -, h⟩ := bind_eq_ok_iff.1 h
  cases h
  exact fun u hu => hd u (List.eraseP_subset hu)

theorem IsExpressible.replaceTable {d : Database} (hd : d.IsExpressible) {t : Table}
    (ht : t.IsExpressible) : (d.replaceTable t).IsExpressible := by
  intro u hu
  obtain ⟨v, hv, rfl⟩ := List.mem_map.1 hu
  split
  · exact ht
  · exact hd v hv

end Database

/-! Catalogs -/

namespace Catalog

variable {c : Catalog} {p : Database → Prop}

/-- A property of every database in memory. -/
def All (p : Database → Prop) (c : Catalog) : Prop :=
  ∀ name d, c.databases.get? name = some d → p d

theorem All.put (h : c.All p) {d : Database} (hd : p d) (name : String) (selected : Option String) :
    Catalog.All p ⟨c.databases.insert name d, selected⟩ := by
  intro k e he
  rw [NameMap.get?_insert] at he
  split at he
  · cases he
    exact hd
  · exact h k e he

theorem All.putCurrent (h : c.All p) {d : Database} (hd : p d) : (c.putCurrent d).All p := by
  unfold Catalog.putCurrent
  split
  · exact h.put hd _ _
  · exact h

theorem All.current (h : c.All p) {d : Database} (hd : c.current = .ok d) : p d := by
  obtain ⟨name, -, hg⟩ := current_eq_ok hd
  exact h name d hg

theorem All.erase (h : c.All p) (name : String) (selected : Option String) :
    Catalog.All p ⟨c.databases.erase name, selected⟩ := by
  intro k e he
  rw [NameMap.get?_erase] at he
  split at he
  · cases he
  · exact h k e he

end Catalog

namespace Sql.Statement

variable {c : Catalog} {statement : Statement} {ch : Change (Except Error Reply)}

theorem isExpressible_changeTable (hc : c.All Database.IsExpressible) {name : String}
    {act : Table → Except Error (Table × Except Error Nat)} {reply : Table → Nat → Reply}
    (ha : ∀ t r, t.IsExpressible → act t = .ok r → r.1.IsExpressible)
    (h : changeTable c name act reply = .ok ch) : ch.catalog.All Database.IsExpressible := by
  obtain ⟨d, hd, h⟩ := bind_eq_ok_iff.1 h
  obtain ⟨t, ht, h⟩ := bind_eq_ok_iff.1 h
  obtain ⟨⟨t', outcome⟩, hr, h⟩ := bind_eq_ok_iff.1 h
  have hde := hc.current hd
  have hp : (c.putTable d t').All Database.IsExpressible :=
    hc.putCurrent (hde.replaceTable (ha t _ (hde t (Database.table_eq_ok ht).1) hr))
  cases outcome with
  | error e =>
    cases h
    exact hp
  | ok count =>
    cases h
    exact hp

/-- A statement that can be written brings in nothing that cannot. -/
theorem isExpressible_run (hs : statement.IsPrintable) (hc : c.All Database.IsExpressible)
    (h : statement.run c = .ok ch) : ch.catalog.All Database.IsExpressible := by
  cases statement with
  | createDatabase name =>
    obtain ⟨ch', h', h⟩ := bind_eq_ok_iff.1 h
    cases h
    obtain ⟨d, hd, h'⟩ := bind_eq_ok_iff.1 h'
    dsimp only at h'
    split at h'
    · cases h'
    · split at h'
      · cases h'
      · cases h'
        exact hc.put (Database.isExpressible_make hd) _ _
  | dropDatabase name =>
    obtain ⟨ch', h', h⟩ := bind_eq_ok_iff.1 h
    cases h
    obtain ⟨d, -, h'⟩ := bind_eq_ok_iff.1 h'
    cases h'
    exact hc.erase _ _
  | useDatabase name =>
    obtain ⟨ch', h', h⟩ := bind_eq_ok_iff.1 h
    cases h
    obtain ⟨d, -, h'⟩ := bind_eq_ok_iff.1 h'
    cases h'
    exact hc
  | createTable name specs =>
    obtain ⟨columns, hcs, h⟩ := bind_eq_ok_iff.1 h
    obtain ⟨ch', h', h⟩ := bind_eq_ok_iff.1 h
    cases h
    obtain ⟨d, hd, h'⟩ := bind_eq_ok_iff.1 h'
    obtain ⟨d', hd', h'⟩ := bind_eq_ok_iff.1 h'
    cases h'
    obtain ⟨hn, hns⟩ := isPrintable_createTable hs
    have hw : ∀ column ∈ columns, IsWord column.name.toList := by
      intro column hm
      obtain ⟨spec, hspec, hmake⟩ := mem_of_mapM hcs hm
      exact Column.isWord_make (hns spec hspec) hmake
    exact hc.putCurrent (Database.isExpressible_createTable (hc.current hd) hn hw hd')
  | dropTable name =>
    obtain ⟨ch', h', h⟩ := bind_eq_ok_iff.1 h
    cases h
    obtain ⟨d, hd, h'⟩ := bind_eq_ok_iff.1 h'
    obtain ⟨r, hr, h'⟩ := bind_eq_ok_iff.1 h'
    cases h'
    exact hc.putCurrent (Database.isExpressible_dropTable (hc.current hd) hr)
  | insert table values =>
    refine isExpressible_changeTable hc (fun t r ht hr => ?_) h
    obtain ⟨t', hi, rfl⟩ := map_eq_ok_iff.1 hr
    exact Table.isExpressible_insert ht (isPrintable_insert_iff.1 hs).2.2 hi
  | update table assignments condition =>
    refine isExpressible_changeTable hc (fun t r ht hr => ?_) h
    exact Table.isExpressible_update ht (isPrintable_update hs) hr
  | delete table condition =>
    refine isExpressible_changeTable hc (fun t r ht hr => ?_) h
    obtain ⟨r', hd, rfl⟩ := map_eq_ok_iff.1 hr
    exact Table.isExpressible_delete ht hd
  | showDatabases =>
    cases h
    exact hc
  | showTables =>
    obtain ⟨d, -, h⟩ := bind_eq_ok_iff.1 h
    cases h
    exact hc
  | select table columns condition =>
    obtain ⟨d, -, h⟩ := bind_eq_ok_iff.1 h
    obtain ⟨t, -, h⟩ := bind_eq_ok_iff.1 h
    obtain ⟨r, -, h⟩ := bind_eq_ok_iff.1 h
    cases h
    exact hc
  | help =>
    cases h
    exact hc

end Sql.Statement

/-! Runs -/

namespace Storage

/-- A property of every database that is stored. -/
def All (p : Database → Prop) (st : Storage) : Prop := ∀ d ∈ st.store.databases st.reader, p d

variable {st : Storage} {p : Database → Prop}

theorem All.settle (h : st.All p) (call : StorageCall) {outcome : Except StorageError Store}
    (ho : ∀ s, outcome = .ok s → ∀ d ∈ s.databases st.reader, p d) :
    (st.settle call outcome).1.All p := by
  cases outcome with
  | error e => exact h
  | ok s => exact ho s rfl

theorem All.save (h : st.All p) {d : Database} (hd : d.WellFormed)
    (hp : ∀ e, d.ReadAs st.reader e → p e) : (st.save d).1.All p := by
  refine h.settle _ fun s hs => ?_
  split at hs
  · cases hs
  · intro e he
    rcases Store.mem_databases_of_save hd hs he with he | he
    · exact hp e he
    · exact h e he

theorem All.remove (h : st.All p) (name : String) : (st.remove name).1.All p := by
  refine h.settle _ fun s hs => ?_
  split at hs
  · cases hs
  · exact fun e he => h e (Store.mem_databases_of_remove hs he)

end Storage

namespace Session

/-- A property of every database, in memory and stored. -/
structure All (p : Database → Prop) (s : Session) : Prop where
  wellFormed : s.catalog.WellFormed
  catalog : s.catalog.All p
  storage : s.storage.All p

variable {s : Session} {p : Database → Prop}

theorem all_open {st : Storage} (h : st.All p) (ho : Session.open st = .ok s) : s.All p := by
  refine ⟨wellFormed_open ho, fun name d hd => ?_, ?_⟩
  · obtain ⟨-, rfl⟩ := open_eq_ok ho
    rw [Catalog.get?_ofDatabases] at hd
    exact h d (List.mem_of_find?_eq_some hd)
  · obtain ⟨-, rfl⟩ := open_eq_ok ho
    exact h

/-- What holds of a database holds of all that it is read as. -/
def KeptByReading (p : Database → Prop) : Prop :=
  ∀ {reader : NumeralReader} {d e : Database}, p d → d.ReadAs reader e → p e

theorem All.commit {α : Type} (hr : KeptByReading p) (h : s.All p) {ch : Change α}
    (hm : s.catalog.Moves ch.catalog ch.call) (hc : ch.catalog.All p) : (s.commit ch).1.All p := by
  refine ⟨?_, ?_, ?_⟩
  · rw [catalog_commit]
    exact hm.wellFormed h.wellFormed
  · rwa [catalog_commit]
  · obtain ⟨c, call, a⟩ := ch
    dsimp only at hm hc
    cases hm with
    | stay => exact h.storage
    | select _ => exact h.storage
    | @put d hd _ =>
      rw [commit_put]
      exact h.storage.save hd fun e he => hr (hc d.name d (NameMap.get?_insert_self _ _ _)) he
    | @drop name _ =>
      rw [commit_remove]
      exact h.storage.remove name

theorem All.flush (hr : KeptByReading p) (h : s.All p) : s.flush.1.All p := by
  refine ⟨h.wellFormed, h.catalog,
    flush_preserves h.wellFormed (fun d hg hw st hst => ?_) h.storage⟩
  exact hst.save hw fun e he => hr (h.catalog d.name d hg) he

/-- What every plan preserves in memory, every run preserves in memory and in the storage. -/
theorem invariant_all (hr : KeptByReading p) (hp : ∀ c : Catalog, c.WellFormed → c.All p →
    ∀ text, (planText c text).catalog.All p) : Connection.Invariant (All p) (Storage.All p) where
  setFaults h _ := ⟨h.wellFormed, h.catalog, h.storage⟩
  execute := by
    intro s h text
    rw [(Prod.mk.inj (execute_eq_commit s text)).1]
    exact h.commit hr (planText_moves h.wellFormed text) (hp _ h.wellFormed h.catalog text)
  flush := All.flush hr
  storage h := h.storage
  storageFaults h _ := h
  «open» := all_open

theorem isExpressible_planText {c : Catalog} (hc : c.All Database.IsExpressible) (text : String) :
    (planText c text).catalog.All Database.IsExpressible := by
  unfold planText
  split
  · exact hc
  · rename_i hp
    split
    · exact hc
    · rename_i hr
      exact Statement.isExpressible_run (Statement.isPrintable_of_parse hp) hc hr

end Session

/-- Where no database is stored at first, all databases of a run come from statements. -/
theorem Connection.Reaches.isExpressible {storage : Storage}
    (h : storage.store.databases storage.reader = []) {s : Session} (hs : Reaches storage s) :
    s.catalog.All Database.IsExpressible := by
  have hi := Session.invariant_all Database.IsExpressible.readAs fun _ _ hc text =>
    Session.isExpressible_planText hc text
  exact (hi.of_reaches (by simp [Storage.All, h]) hs).catalog

end TableStore

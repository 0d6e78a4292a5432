import TableStore.Proofs.DocumentNumbers
import TableStore.Proofs.Fields
import TableStore.Proofs.JsonText
import TableStore.Proofs.Run

/-!
# Documents read back

The document of a well-formed database is loaded as that database, but for the numbers that the
reader of numerals does not read back. The tree of the database has a written form, and every part
of it is read as what it was made from.
-/
namespace TableStore

/-! Lists -/

theorem forall₂_congr_left {α β : Type} {P Q : α → β → Prop} {xs : List α}
    (h : ∀ x ∈ xs, ∀ y, P x y ↔ Q x y) {ys : List β} :
    List.Forall₂ P xs ys ↔ List.Forall₂ Q xs ys := by
  induction xs generalizing ys with
  | nil => simp
  | cons x xs ih =>
    obtain ⟨hx, hxs⟩ := List.forall_mem_cons.1 h
    simp only [List.forall₂_cons_left_iff, hx, ih hxs]

theorem exists_of_forall₂ {α β : Type} {P : α → β → Prop} {as : List α} {bs : List β}
    (h : List.Forall₂ P as bs) {a : α} (ha : a ∈ as) : ∃ b ∈ bs, P a b := by
  induction h with
  | nil => cases ha
  | @cons _ b _ _ hab _ ih =>
    rcases List.mem_cons.1 ha with rfl | ha
    · exact ⟨b, List.mem_cons_self, hab⟩
    · obtain ⟨b', hb', h⟩ := ih ha
      exact ⟨b', List.mem_cons_of_mem _ hb', h⟩

/-! Written forms -/

theorem Value.isWritable_toJson (v : Value) : v.toJson.isWritable = true := by
  cases v with
  | integer i => exact Numeral.isNumeral_integerText i
  | float x =>
    rw [toJson]
    split
    · rename_i h
      exact NumberLayout.isNumeral_write documentLayout (.inr rfl) h
    · rfl
  | _ => rfl

namespace Json

theorem itemsWritable_of_forall {js : List Json} (h : ∀ j ∈ js, j.isWritable = true) :
    itemsWritable js = true := by
  induction js with
  | nil => rfl
  | cons j js ih =>
    obtain ⟨hj, hjs⟩ := List.forall_mem_cons.1 h
    exact itemsWritable_cons.2 ⟨hj, ih hjs⟩

theorem membersWritable_of_forall {ms : List (JsonText × Json)}
    (h : ∀ m ∈ ms, m.1.isSome = true ∧ m.2.isWritable = true) : membersWritable ms = true := by
  induction ms with
  | nil => rfl
  | cons m ms ih =>
    obtain ⟨⟨hk, hj⟩, hms⟩ := List.forall_mem_cons.1 h
    exact membersWritable_cons.2 ⟨hk, hj, ih hms⟩

end Json

namespace Document

theorem isWritable_ofRow (r : Row) : (ofRow r).isWritable = true := by
  refine Json.membersWritable_of_forall fun m hm => ?_
  obtain ⟨cell, -, rfl⟩ := List.mem_map.1 hm
  exact ⟨rfl, cell.2.isWritable_toJson⟩

theorem isWritable_ofColumn (c : Column) : (ofColumn c).isWritable = true := rfl

theorem isWritable_ofTable (t : Table) : (ofTable t).isWritable = true := by
  have hc : Json.itemsWritable (t.columns.map ofColumn) = true := by
    refine Json.itemsWritable_of_forall fun j hj => ?_
    obtain ⟨c, -, rfl⟩ := List.mem_map.1 hj
    exact isWritable_ofColumn c
  have hr : Json.itemsWritable (t.rows.map ofRow) = true := by
    refine Json.itemsWritable_of_forall fun j hj => ?_
    obtain ⟨r, -, rfl⟩ := List.mem_map.1 hj
    exact isWritable_ofRow r
  simp [ofTable, Json.isWritable, Json.membersWritable, hc, hr]

theorem isWritable_ofDatabase (d : Database) : (ofDatabase d).isWritable = true := by
  have ht : Json.membersWritable (d.tables.map fun t => (some t.name, ofTable t)) = true := by
    refine Json.membersWritable_of_forall fun m hm => ?_
    obtain ⟨t, -, rfl⟩ := List.mem_map.1 hm
    exact ⟨rfl, isWritable_ofTable t⟩
  simp [ofDatabase, Json.isWritable, Json.membersWritable, ht]

/-! Lists and objects read back -/

/-- Entries with distinct keys are read in their order. -/
theorem readEntries_map_eq_ok_iff {α β : Type} {value : Json → Except Error α} {key : β → String}
    {encode : β → Json} {P : β → α → Prop} {xs : List β} (hn : (xs.map key).Nodup)
    (h : ∀ x ∈ xs, ∀ y, value (encode x) = .ok y ↔ P x y) {es : List (String × α)} :
    readEntries value (.object (xs.map fun x => (some (key x), encode x))) = .ok es ↔
      List.Forall₂ (fun x e => e.1 = key x ∧ P x e.2) xs es := by
  have hf : AreFields (xs.map fun x => (some (key x), encode x)) := by
    refine ⟨by simp, ?_⟩
    have hs := hn.map (Option.some_injective String)
    rwa [List.map_map] at hs ⊢
  rw [readEntries_eq_ok_iff hf, List.forall₂_map_left_iff]
  refine forall₂_congr_left fun x hx e => ?_
  rw [h x hx, Option.some.injEq, eq_comm]

theorem readItems_map_eq_ok_iff {α β : Type} {item : Json → Except Error α} {encode : β → Json}
    {P : β → α → Prop} {xs : List β} (h : ∀ x ∈ xs, ∀ y, item (encode x) = .ok y ↔ P x y)
    {ys : List α} :
    readItems item (.array (xs.map encode)) = .ok ys ↔ List.Forall₂ P xs ys := by
  rw [readItems, mapM_eq_ok_iff, List.forall₂_map_left_iff]
  exact forall₂_congr_left h

end Document

/-! What rows, tables and databases are read as -/

section ReadAs

variable (reader : NumeralReader)

def Row.ReadAs (r r' : Row) : Prop :=
  List.Forall₂ (fun cell cell' => cell'.1 = cell.1 ∧ cell.2.ReadAs reader cell'.2) r.cells r'.cells

structure Table.ReadAs (t u : Table) : Prop where
  name : u.name = t.name
  columns : u.columns = t.columns
  rows : List.Forall₂ (Row.ReadAs reader) t.rows u.rows

structure Database.ReadAs (d e : Database) : Prop where
  name : e.name = d.name
  tables : List.Forall₂ (Table.ReadAs reader) d.tables e.tables

/-- Every number in the database is finite and read from its text. -/
def Database.IsReadBack (d : Database) : Prop :=
  ∀ t ∈ d.tables, ∀ r ∈ t.rows, ∀ cell ∈ r.cells, cell.2.IsReadBack reader

end ReadAs

variable {reader : NumeralReader}

theorem DataType.stores_of_readAs {t : DataType} {v w : Value} (h : v.ReadAs reader w)
    (hs : t.stores v = true) : t.stores w = true := by
  cases v with
  | float x =>
    obtain ⟨y, -, hy, rfl⟩ := h
    cases t with
    | double => exact hy
    | _ => cases hs
  | _ =>
    cases h
    exact hs

theorem Row.Fits.readAs {columns : List Column} {r r' : Row} (hf : r.Fits columns)
    (h : r.ReadAs reader r') : r'.Fits columns := by
  obtain ⟨cells⟩ := r
  obtain ⟨cells'⟩ := r'
  change List.Forall₂ Column.Holds columns cells at hf
  change List.Forall₂ _ cells cells' at h
  show List.Forall₂ Column.Holds columns cells'
  induction hf generalizing cells' with
  | nil =>
    cases h
    exact .nil
  | cons hc _ ih =>
    cases h with
    | cons hcell hcells =>
      exact .cons ⟨hcell.1.trans hc.1, DataType.stores_of_readAs hcell.2 hc.2⟩ (ih _ hcells)

theorem Table.WellFormed.readAs {t u : Table} (ht : t.WellFormed) (h : t.ReadAs reader u) :
    u.WellFormed := by
  obtain ⟨n, cs, rs⟩ := u
  obtain ⟨rfl, rfl, hrows⟩ := h
  refine ⟨ht.name, ht.columns_ne_nil, ht.columnNames, ht.nodup, fun r hr => ?_⟩
  obtain ⟨r', hr', hra⟩ := exists_of_forall₂ hrows.flip hr
  exact (ht.rows r' hr').readAs hra

theorem Database.ReadAs.tableNames {d e : Database} (h : d.ReadAs reader e) :
    e.tableNames = d.tableNames := by
  obtain ⟨n, ts⟩ := d
  obtain ⟨n', us⟩ := e
  have ht : List.Forall₂ (Table.ReadAs reader) ts us := h.tables
  unfold Database.tableNames
  clear h
  induction ht with
  | nil => rfl
  | cons h _ ih => rw [List.map_cons, List.map_cons, h.name, ih]

theorem Database.WellFormed.readAs {d e : Database} (hd : d.WellFormed) (h : d.ReadAs reader e) :
    e.WellFormed := by
  refine ⟨h.name ▸ hd.name, h.tableNames ▸ hd.nodup, fun u hu => ?_⟩
  obtain ⟨t, ht, hra⟩ := exists_of_forall₂ h.tables.flip hu
  exact (hd.tables t ht).readAs hra

/-- A database is read as itself if its numbers are read from their texts. -/
theorem Database.readAs_self_iff {d : Database} (hd : d.WellFormed) :
    d.ReadAs reader d ↔ d.IsReadBack reader := by
  have hcell : ∀ t ∈ d.tables, ∀ r ∈ t.rows, ∀ cell ∈ r.cells, cell.2.isFinite = true := by
    intro t ht r hr cell hcell
    obtain ⟨c, -, hc⟩ := exists_holds_of_mem ((hd.tables t ht).rows r hr) hcell
    exact DataType.isFinite_of_stores hc.2
  have hrow : ∀ t ∈ d.tables, ∀ r ∈ t.rows,
      (r.ReadAs reader r ↔ ∀ cell ∈ r.cells, cell.2.IsReadBack reader) := by
    intro t ht r hr
    rw [Row.ReadAs, List.forall₂_same]
    refine forall₂_congr fun cell hm => ?_
    rw [← Value.readAs_self_iff (hcell t ht r hr cell hm)]
    exact and_iff_right rfl
  have htable : ∀ t ∈ d.tables, (t.ReadAs reader t ↔ ∀ r ∈ t.rows, r.ReadAs reader r) := by
    intro t _
    rw [← List.forall₂_same]
    exact ⟨Table.ReadAs.rows, fun h => ⟨rfl, rfl, h⟩⟩
  calc d.ReadAs reader d ↔ ∀ t ∈ d.tables, t.ReadAs reader t := by
        rw [← List.forall₂_same]
        exact ⟨Database.ReadAs.tables, fun h => ⟨rfl, h⟩⟩
    _ ↔ d.IsReadBack reader := by
        refine forall₂_congr fun t ht => (htable t ht).trans ?_
        exact forall₂_congr fun r hr => hrow t ht r hr

theorem NumeralReader.ReadsBack.isReadBack (hr : reader.ReadsBack) {d : Database}
    (hd : d.WellFormed) : d.IsReadBack reader := by
  intro t ht r hrow cell hcell x hx
  obtain ⟨c, -, hc⟩ := exists_holds_of_mem ((hd.tables t ht).rows r hrow) hcell
  have hf : cell.2.isFinite = true := DataType.isFinite_of_stores hc.2
  rw [hx] at hf
  exact ⟨hf, hr x hf⟩

namespace Document

/-! Parts read back -/

theorem readRow_ofRow_eq_ok_iff {columns : List Column} (hn : (columns.map Column.name).Nodup)
    {r : Row} (h : r.Fits columns) {cells : List (String × Value)} :
    readRow reader (ofRow r) = .ok cells ↔ r.ReadAs reader ⟨cells⟩ := by
  have hv : ∀ cell ∈ r.cells, ∀ w,
      readValue reader cell.2.toJson = .ok w ↔ cell.2.ReadAs reader w := by
    intro cell hm w
    obtain ⟨c, -, hc⟩ := exists_holds_of_mem h hm
    exact readValue_toJson_eq_ok_iff (DataType.isFinite_of_stores hc.2)
  exact readEntries_map_eq_ok_iff (map_fst_of_holds h ▸ hn) hv

theorem readColumn_ofColumn (c : Column) : readColumn (ofColumn c) = .ok (c.name, c.type) := by
  have ht : readType (.string (some c.type.name)) = .ok c.type := by
    rw [readType, DataType.ofName?_name]
  have hf : foldMembers ColumnFields.set {}
      [(some "name", .string (some c.name)), (some "type", .string (some c.type.name))] =
        .ok ⟨some c.name, some c.type⟩ := by
    simp [foldMembers, ColumnFields.set, once, readText, ht, Except.map, bind, Except.bind, pure,
      Except.pure]
  rw [ofColumn, readColumn, hf]
  rfl

theorem makeTable_of_wellFormed {t : Table} (ht : t.WellFormed) :
    makeTable t.name (t.columns.map fun c => (c.name, c.type)) (t.rows.map Row.cells) = .ok t := by
  have hc : (t.columns.map fun c => (c.name, c.type)).mapM (fun c => Column.make c.1 c.2) =
      .ok t.columns := by
    rw [mapM_eq_ok_iff, List.forall₂_map_left_iff, List.forall₂_same]
    exact fun c hm => Column.make_of_isProper (ht.columnNames c hm)
  have hr : (t.rows.map Row.cells).mapM (Table.makeRow ⟨t.name, t.columns, []⟩) = .ok t.rows := by
    rw [mapM_eq_ok_iff, List.forall₂_map_left_iff, List.forall₂_same]
    exact fun r hm => Table.makeRow_of_fits ht.nodup (ht.rows r hm)
  rw [makeTable, hc]
  refine bind_eq_ok_iff.2 ⟨_, rfl, ?_⟩
  rw [Table.make_of_isProper ht.name ht.columns_ne_nil ht.nodup]
  refine bind_eq_ok_iff.2 ⟨_, rfl, ?_⟩
  rw [hr]
  rfl

theorem readTable_ofTable (t : Table) : readTable reader (ofTable t) =
    readItems (readRow reader) (.array (t.rows.map ofRow)) >>=
      makeTable t.name (t.columns.map fun c => (c.name, c.type)) := by
  have hc : readItems readColumn (.array (t.columns.map ofColumn)) =
      .ok (t.columns.map fun c => (c.name, c.type)) := by
    rw [readItems_map_eq_ok_iff (P := fun c x => x = (c.name, c.type)), List.forall₂_map_right_iff,
      List.forall₂_same]
    · exact fun c _ => rfl
    · intro c _ x
      rw [readColumn_ofColumn, Except.ok.injEq, eq_comm]
  rw [ofTable, readTable]
  cases hr : readItems (readRow reader) (.array (t.rows.map ofRow)) <;>
    simp [foldMembers, TableFields.set, once, readText, hc, hr, Except.map, bind, Except.bind, pure,
      Except.pure]

/-- A table is loaded as what its numbers are read as. -/
theorem readTable_ofTable_eq_ok_iff {t u : Table} (ht : t.WellFormed) :
    readTable reader (ofTable t) = .ok u ↔ t.ReadAs reader u := by
  have hread : ∀ {rows : List (List (String × Value))},
      readItems (readRow reader) (.array (t.rows.map ofRow)) = .ok rows ↔
        List.Forall₂ (fun r cells => r.ReadAs reader ⟨cells⟩) t.rows rows :=
    readItems_map_eq_ok_iff fun r hm _ => readRow_ofRow_eq_ok_iff ht.nodup (ht.rows r hm)
  have hmake : ∀ {rows : List Row}, List.Forall₂ (Row.ReadAs reader) t.rows rows →
      makeTable t.name (t.columns.map fun c => (c.name, c.type)) (rows.map Row.cells) =
        .ok { t with rows := rows } := by
    intro rows h
    have hu : Table.WellFormed { t with rows := rows } := ht.readAs ⟨rfl, rfl, h⟩
    have hm := makeTable_of_wellFormed hu
    exact hm
  rw [readTable_ofTable, bind_eq_ok_iff]
  constructor
  · rintro ⟨rows, hr, hm⟩
    have hrows : List.Forall₂ (Row.ReadAs reader) t.rows (rows.map Row.mk) :=
      List.forall₂_map_right_iff.2 (hread.1 hr)
    have hm' := hmake hrows
    rw [List.map_map, show Row.cells ∘ Row.mk = id from rfl, List.map_id] at hm'
    rw [hm'] at hm
    cases hm
    exact ⟨rfl, rfl, hrows⟩
  · intro h
    obtain ⟨n, cs, rs⟩ := u
    obtain ⟨rfl, rfl, hrows⟩ := h
    exact ⟨rs.map Row.cells, hread.2 (List.forall₂_map_right_iff.2 hrows), hmake hrows⟩

theorem foldlM_addTable_eq_ok_iff {entries : List (String × Table)} {d e : Database}
    (hd : d.tableNames.Nodup) : entries.foldlM (fun d t => addTable d t.2) d = .ok e ↔
      (d.tableNames ++ entries.map fun t => t.2.name).Nodup ∧
        e = { d with tables := d.tables ++ entries.map Prod.snd } := by
  induction entries generalizing d with
  | nil => simp [hd, pure, Except.pure, eq_comm]
  | cons t ts ih =>
    rw [List.foldlM_cons, addTable]
    split
    · rename_i hm
      have hn : ¬ (d.tableNames ++ (t :: ts).map fun t => t.2.name).Nodup := fun hn =>
        (List.nodup_append.1 hn).2.2 _ hm t.2.name (by simp) rfl
      exact iff_of_false (fun h => nomatch h) fun h => hn h.1
    · rename_i hm
      have hd' : (Database.tableNames { d with tables := d.tables ++ [t.2] }).Nodup := by
        simpa [Database.tableNames] using hd.concat hm
      refine (ih hd').trans ?_
      simp [Database.tableNames]

theorem makeDatabase_of_wellFormed {d : Database} (hd : d.WellFormed)
    {entries : List (String × Table)} (he : entries.map Prod.snd = d.tables) :
    makeDatabase d.name entries = .ok d := by
  refine bind_eq_ok_iff.2 ⟨⟨d.name, []⟩, Database.make_of_isProper hd.name, ?_⟩
  have hn : (entries.map fun t => t.2.name) = d.tableNames := by
    rw [Database.tableNames, ← he, List.map_map]
    rfl
  rw [foldlM_addTable_eq_ok_iff (by simp [Database.tableNames]), hn, he]
  exact ⟨hd.nodup, rfl⟩

theorem readDatabase_ofDatabase (d : Database) : readDatabase reader (ofDatabase d) =
    readEntries (readTable reader) (.object (d.tables.map fun t => (some t.name, ofTable t))) >>=
      makeDatabase d.name := by
  rw [ofDatabase, readDatabase]
  cases ht : readEntries (readTable reader)
      (.object (d.tables.map fun t => (some t.name, ofTable t))) <;>
    simp [foldMembers, DatabaseFields.set, once, readText, ht, Except.map, bind, Except.bind, pure,
      Except.pure]

theorem readDatabase_ofDatabase_eq_ok_iff {d e : Database} (hd : d.WellFormed) :
    readDatabase reader (ofDatabase d) = .ok e ↔ d.ReadAs reader e := by
  have hread : ∀ {entries : List (String × Table)}, readEntries (readTable reader)
      (.object (d.tables.map fun t => (some t.name, ofTable t))) = .ok entries ↔
        List.Forall₂ (fun t x => x.1 = t.name ∧ t.ReadAs reader x.2) d.tables entries :=
    readEntries_map_eq_ok_iff hd.nodup fun t hm _ => readTable_ofTable_eq_ok_iff (hd.tables t hm)
  rw [readDatabase_ofDatabase, bind_eq_ok_iff]
  constructor
  · rintro ⟨entries, hr, hm⟩
    have ht : d.ReadAs reader ⟨d.name, entries.map Prod.snd⟩ :=
      ⟨rfl, List.forall₂_map_right_iff.2 ((hread.1 hr).imp fun _ _ h => h.2)⟩
    rw [makeDatabase_of_wellFormed (d := ⟨d.name, entries.map Prod.snd⟩) (hd.readAs ht) rfl] at hm
    cases hm
    exact ht
  · intro h
    refine ⟨e.tables.map fun t => (t.name, t), hread.2 ?_, ?_⟩
    · rw [List.forall₂_map_right_iff]
      exact h.tables.imp fun _ _ ht => ⟨ht.name, ht⟩
    · rw [← h.name]
      exact makeDatabase_of_wellFormed (hd.readAs h) (by simp [Function.comp_def])

/-- The document of a database is loaded as what its numbers are read as. -/
theorem load_text_eq_ok_iff {d e : Database} (hd : d.WellFormed) :
    load (text d) reader = .ok e ↔ d.ReadAs reader e := by
  rw [← readDatabase_ofDatabase_eq_ok_iff hd, load, text,
    Json.read_pretty (isWritable_ofDatabase d)]
  constructor
  · intro h
    obtain ⟨d', hr, h⟩ := bind_eq_ok_iff.1 h
    cases h
    exact hr
  · exact fun h => bind_eq_ok_iff.2 ⟨e, h, rfl⟩

theorem load_text_eq_self_iff {d : Database} (hd : d.WellFormed) :
    load (text d) reader = .ok d ↔ d.IsReadBack reader :=
  (load_text_eq_ok_iff hd).trans (Database.readAs_self_iff hd)

theorem load_text (hr : reader.ReadsBack) {d : Database} (hd : d.WellFormed) :
    load (text d) reader = .ok d :=
  (load_text_eq_self_iff hd).2 (hr.isReadBack hd)

/-- The document of a database that keeps to the data model is loaded as that very database where
numbers are read from their texts, and every database of a session that a run comes to is one. -/
theorem load_text_of_wellFormed (reader : NumeralReader) (hr : reader.ReadsBack) :
    (∀ d : Database, d.WellFormed → load (text d) reader = .ok d) ∧
    ∀ storage s, Connection.Reaches storage s →
      ∀ name d, s.catalog.databases.get? name = some d → load (text d) reader = .ok d := by
  refine ⟨fun d hd => load_text hr hd, fun storage s hs name d hg => ?_⟩
  exact load_text hr (hs.wellFormed.databases name d hg).2

/-- A database with quotes and line breaks in its names and values, and with a minus zero. -/
def quoted : Database :=
  ⟨"\"d\"", [⟨"t", [⟨"a\nb", .double⟩, ⟨"é", .string⟩],
    [⟨[("a\nb", .float (.zero true)), ("é", .string "\\\t\"")]⟩, ⟨[("a\nb", .null), ("é", .null)]⟩]⟩]⟩

theorem wellFormed_quoted : quoted.WellFormed := by
  refine ⟨by decide, by decide, fun t ht => ?_⟩
  cases List.mem_singleton.1 ht
  refine ⟨by decide, by decide, by decide, by decide, fun r hr => ?_⟩
  rcases List.mem_pair.1 hr with rfl | rfl
  · exact .cons ⟨rfl, rfl⟩ (.cons ⟨rfl, rfl⟩ .nil)
  · exact .cons ⟨rfl, rfl⟩ (.cons ⟨rfl, rfl⟩ .nil)

theorem load_text_quoted :
    quoted.WellFormed ∧ load (text quoted) = .ok quoted ∧
    ∃ s d, Connection.Reaches { store := .memory .empty } s ∧
      s.catalog.databases.get? "d" = some d ∧ load (text d) = .ok d :=
  have h := load_text_of_wellFormed .exact NumeralReader.exact_readsBack
  ⟨wellFormed_quoted, h.1 quoted wellFormed_quoted, _, ⟨"d", []⟩,
    ⟨Connection.unsavedSteps, rfl⟩, rfl,
    h.2 { store := .memory .empty } _ ⟨Connection.unsavedSteps, rfl⟩ "d" ⟨"d", []⟩ rfl⟩

end Document

end TableStore

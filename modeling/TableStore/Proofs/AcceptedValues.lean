import TableStore.Proofs.Normalisation
import TableStore.Proofs.Query
import TableStore.Proofs.Truncation

/-!
# Accepted values in documents

What is left of the values of a database that is stored and loaded again. A number that is given as
a number is not checked to be finite before a column takes it, and a document has only null to write
for one that is not. Every other accepted value comes back as it was.
-/
namespace TableStore

/-! Values -/

namespace Value

/-- What a document keeps of a value: all but a number that is not finite. -/
def kept (v : Value) : Value := if v.isFinite then v else .null

variable {v : Value}

theorem kept_of_isFinite (h : v.isFinite = true) : v.kept = v := if_pos h

theorem kept_of_not_isFinite (h : v.isFinite = false) : v.kept = .null := by
  rw [kept, h, if_neg Bool.false_ne_true]

theorem kept_eq_self_iff : v.kept = v ↔ v.isFinite = true := by
  constructor
  · intro h
    by_contra hv
    rw [kept_of_not_isFinite (eq_false_of_ne_true hv)] at h
    exact hv (h ▸ rfl)
  · exact kept_of_isFinite

theorem exists_float_of_not_isFinite (h : v.isFinite = false) :
    ∃ x, v = .float x ∧ x.isFinite = false := by
  cases v with
  | float x => exact ⟨x, rfl, h⟩
  | _ => cases h

theorem isFinite_kept (v : Value) : v.kept.isFinite = true := by
  cases h : v.isFinite with
  | true => rwa [kept_of_isFinite h]
  | false =>
    rw [kept_of_not_isFinite h]
    rfl

theorem toJson_kept (v : Value) : v.kept.toJson = v.toJson := by
  cases h : v.isFinite with
  | true => rw [kept_of_isFinite h]
  | false =>
    obtain ⟨x, rfl, hx⟩ := exists_float_of_not_isFinite h
    rw [kept_of_not_isFinite h, toJson, toJson, hx, if_neg Bool.false_ne_true]

variable {reader : NumeralReader}

theorem IsReadBack.isFinite (h : v.IsReadBack reader) : v.isFinite = true := by
  cases v with
  | float x => exact (h x rfl).1
  | _ => rfl

/-- What is kept of a value is read as the value itself only if that comes back. -/
theorem kept_readAs_self_iff : v.kept.ReadAs reader v ↔ v.IsReadBack reader := by
  cases h : v.isFinite with
  | true => rw [kept_of_isFinite h, readAs_self_iff h]
  | false =>
    rw [kept_of_not_isFinite h]
    refine iff_of_false ?_ fun hb => ?_
    · rintro rfl
      cases h
    · rw [hb.isFinite] at h
      cases h

theorem isReadBack_iff (hr : reader.ReadsBack) : v.IsReadBack reader ↔ v.isFinite = true := by
  refine ⟨IsReadBack.isFinite, fun h x hx => ?_⟩
  subst hx
  exact ⟨h, hr x h⟩

end Value

namespace DataType

variable {t : DataType} {v w : Value}

/-- Only a column of doubles takes a number that is not finite as a number. -/
theorem convert?_of_not_isFinite {x : Binary64} (hx : x.isFinite = false)
    (h : t.convert? (.float x) = some w) :
    (t = .double ∧ w = .float x) ∨ (t = .string ∧ ∃ s, w = .string s) := by
  cases t with
  | integer => simp [convert?, integerOfFloat?_of_not_isFinite hx] at h
  | double =>
    cases h
    exact .inl ⟨rfl, rfl⟩
  | string =>
    cases h
    exact .inr ⟨rfl, _, rfl⟩
  | boolean => cases h

theorem eq_of_convert? (h : t.convert? v = some w) (hw : w.isFinite = false) :
    t = .double ∧ v = w := by
  cases hv : v.isFinite with
  | true =>
    rw [isFinite_of_stores (stores_of_convert? hv h)] at hw
    cases hw
  | false =>
    obtain ⟨x, rfl, hx⟩ := Value.exists_float_of_not_isFinite hv
    rcases convert?_of_not_isFinite hx h with ⟨rfl, rfl⟩ | ⟨-, s, rfl⟩
    · exact ⟨rfl, rfl⟩
    · cases hw

/-- What a document keeps of an accepted value is stored by the type. -/
theorem stores_kept_of_convert? (h : t.convert? v = some w) : t.stores w.kept = true := by
  cases hv : v.isFinite with
  | true =>
    have hs := stores_of_convert? hv h
    rwa [Value.kept_of_isFinite (isFinite_of_stores hs)]
  | false =>
    obtain ⟨x, rfl, hx⟩ := Value.exists_float_of_not_isFinite hv
    rcases convert?_of_not_isFinite hx h with ⟨rfl, rfl⟩ | ⟨rfl, s, rfl⟩
    · rw [Value.kept_of_not_isFinite hv]
      rfl
    · rfl

end DataType

namespace Document

/-- The value that is all of a text. -/
def loadValue (text : String) (reader : NumeralReader := .exact) : Except Error Value := do
  let (j, goesOn) := Json.read text
  let v ← readValue reader j
  if goesOn then throw .noDocument else return v

variable {reader : NumeralReader} {t : DataType} {v w w' : Value}

theorem loadValue_pretty_eq_ok_iff :
    loadValue v.toJson.pretty reader = .ok w ↔ v.kept.ReadAs reader w := by
  rw [loadValue, Json.read_pretty v.isWritable_toJson, ← v.toJson_kept,
    ← readValue_toJson_eq_ok_iff v.isFinite_kept]
  constructor
  · intro h
    obtain ⟨_, hr, he⟩ := bind_eq_ok_iff.1 h
    cases he
    exact hr
  · exact fun h => bind_eq_ok_iff.2 ⟨w, h, rfl⟩

/-- An accepted value that is read back is accepted again, as it was read. -/
theorem convert_loadValue_pretty_eq_ok_iff (h : t.convert v = .ok w) :
    (loadValue w.toJson.pretty reader).bind t.convert = .ok w' ↔ w.kept.ReadAs reader w' := by
  have hk := DataType.stores_kept_of_convert? (DataType.convert_eq_ok_iff.1 h)
  have hconvert : ∀ x, w.kept.ReadAs reader x → t.convert x = .ok x := fun x hx =>
    DataType.convert_eq_ok_iff.2 (DataType.convert?_of_stores (DataType.stores_of_readAs hx hk))
  refine bind_eq_ok_iff.trans ?_
  simp only [loadValue_pretty_eq_ok_iff]
  constructor
  · rintro ⟨x, hx, hc⟩
    rw [hconvert x hx] at hc
    cases hc
    exact hx
  · exact fun hx => ⟨w', hx, hconvert w' hx⟩

end Document

/-! Rows, tables and databases -/

theorem map_eq_self_iff {α : Type} {f : α → α} {xs : List α} :
    xs.map f = xs ↔ ∀ x ∈ xs, f x = x := by
  have h : xs.map f = xs.map id ↔ ∀ x ∈ xs, f x = id x := List.map_inj_left
  rwa [List.map_id] at h

namespace Row

def keptCell (cell : String × Value) : String × Value := (cell.1, cell.2.kept)

def kept (r : Row) : Row := ⟨r.cells.map keptCell⟩

variable {columns : List Column} {r r' : Row} {c : Column} {v : Value}

theorem kept_eq_self_iff : r.kept = r ↔ ∀ cell ∈ r.cells, cell.2.isFinite = true := by
  obtain ⟨cells⟩ := r
  rw [kept, mk.injEq, map_eq_self_iff]
  refine forall₂_congr fun cell _ => ?_
  rw [keptCell, Prod.ext_iff, ← Value.kept_eq_self_iff]
  exact and_iff_right rfl

theorem ofRow_kept (r : Row) : Document.ofRow r.kept = Document.ofRow r := by
  rw [Document.ofRow, Document.ofRow, kept, List.map_map]
  refine congrArg Json.object (List.map_congr_left fun cell _ => ?_)
  exact congrArg (Prod.mk _) cell.2.toJson_kept

theorem setCell_keptCell (column : String) (v : Value) (cells : List (String × Value)) :
    setCell column v.kept (cells.map keptCell) =
      (setCell column v cells).map (List.map keptCell) := by
  induction cells with
  | nil => rfl
  | cons cell cells ih =>
    obtain ⟨name, old⟩ := cell
    rw [List.map_cons, keptCell, setCell, setCell, ih]
    split
    · rfl
    · cases setCell column v cells <;> rfl

theorem fits_kept_update (hn : (columns.map Column.name).Nodup) (hr : r.kept.Fits columns)
    (hc : c ∈ columns) (h : r.update c v = .ok r') : r'.kept.Fits columns := by
  obtain ⟨w, hw, h⟩ := bind_eq_ok_iff.1 h
  have hs := DataType.stores_kept_of_convert? (Column.convert_eq_ok_iff.1 hw)
  obtain ⟨cells', hset, hf⟩ := setCell_of_holds hn hr hc hs
  unfold set at h
  split at h
  · rename_i cells hcells
    cases h
    rw [kept, setCell_keptCell, hcells] at hset
    cases hset
    exact hf
  · cases h

end Row

namespace Table

def kept (t : Table) : Table := { t with rows := t.rows.map Row.kept }

variable {t : Table} {values : List (String × Value)} {r : Row}

theorem kept_eq_self_iff :
    t.kept = t ↔ ∀ r ∈ t.rows, ∀ cell ∈ r.cells, cell.2.isFinite = true := by
  obtain ⟨n, cs, rs⟩ := t
  simp only [kept, mk.injEq, map_eq_self_iff, Row.kept_eq_self_iff, true_and]

theorem ofTable_kept (t : Table) : Document.ofTable t.kept = Document.ofTable t := by
  have hr : t.kept.rows.map Document.ofRow = t.rows.map Document.ofRow := by
    rw [kept, List.map_map]
    exact List.map_congr_left fun r _ => r.ofRow_kept
  rw [Document.ofTable, hr]
  rfl

theorem fits_kept_makeRow (h : t.makeRow values = .ok r) : r.kept.Fits t.columns := by
  obtain ⟨cells, hcells, h⟩ := bind_eq_ok_iff.1 h
  split at h
  · cases h
  · cases h
    rw [Row.Fits, Row.kept, List.forall₂_map_right_iff]
    refine (makeCells_eq_ok_iff.1 hcells).imp fun c cell hc => ⟨hc.1, ?_⟩
    exact DataType.stores_kept_of_convert? (Column.convert_eq_ok_iff.1 hc.2)

end Table

namespace Database

def kept (d : Database) : Database := { d with tables := d.tables.map Table.kept }

/-- No number in the database is infinite or not a number. -/
def IsFinite (d : Database) : Prop :=
  ∀ t ∈ d.tables, ∀ r ∈ t.rows, ∀ cell ∈ r.cells, cell.2.isFinite = true

variable {d d' : Database}

theorem kept_eq_self_iff : d.kept = d ↔ d.IsFinite := by
  obtain ⟨n, ts⟩ := d
  simp only [kept, mk.injEq, map_eq_self_iff, Table.kept_eq_self_iff, true_and, IsFinite]

/-- A document is also that of what it keeps. -/
theorem text_kept (d : Database) : Document.text d.kept = Document.text d := by
  have ht : d.kept.tables.map (fun t => ((some t.name, Document.ofTable t) : JsonText × Json)) =
      d.tables.map fun t => (some t.name, Document.ofTable t) := by
    rw [kept, List.map_map]
    exact List.map_congr_left fun t _ => congrArg (Prod.mk _) t.ofTable_kept
  rw [Document.text, Document.text, Document.ofDatabase, Document.ofDatabase, ht]
  rfl

theorem tableNames_kept (d : Database) : d.kept.tableNames = d.tableNames := by
  rw [tableNames, kept, List.map_map]
  rfl

theorem WellFormed.isFinite (h : d.WellFormed) : d.IsFinite := by
  intro t ht r hr cell hcell
  obtain ⟨c, -, -, hc⟩ := exists_holds_of_mem ((h.tables t ht).rows r hr) hcell
  exact DataType.isFinite_of_stores hc

theorem kept_replaceTable (t : Table) :
    (d.replaceTable t).kept = d.kept.replaceTable t.kept := by
  rw [kept, kept, replaceTable, replaceTable, List.map_map, List.map_map]
  refine congrArg (Database.mk _) (List.map_congr_left fun u _ => ?_)
  exact apply_ite Table.kept (u.name = t.name) t u

/-- One call of the record model, if it succeeds. -/
inductive Changes (d : Database) : Database → Prop where
  | createTable {name : String} {specs : List (String × DataType)} {columns : List Column}
      {d' : Database} (hc : specs.mapM (fun s => Column.make s.1 s.2) = .ok columns)
      (h : d.createTable name columns = .ok d') : Changes d d'
  | dropTable {name : String} {r : Database × Table} (h : d.dropTable name = .ok r) : Changes d r.1
  | addRow {t t' : Table} {values : List (String × Value)} (ht : t ∈ d.tables)
      (h : t.addRow values = .ok t') : Changes d (d.replaceTable t')
  | updateRow {t : Table} {c : Column} {v : Value} {before after : List Row} {r r' : Row}
      (ht : t ∈ d.tables) (hc : c ∈ t.columns) (hr : t.rows = before ++ r :: after)
      (h : r.update c v = .ok r') :
      Changes d (d.replaceTable { t with rows := before ++ r' :: after })
  | deleteRows {t : Table} (ht : t ∈ d.tables) (selects : Row → Bool) :
      Changes d (d.replaceTable (t.deleteRows selects))

/-- A database that is made by calls of the record model, from nothing or from a document. -/
inductive Made : Database → Prop where
  | make {name : String} {d : Database} (h : Database.make name = .ok d) : Made d
  | load {reader : NumeralReader} {text : String} {d : Database}
      (h : Document.load text reader = .ok d) : Made d
  | step {d d' : Database} (hd : Made d) (h : d.Changes d') : Made d'

/-- New rows that fit as far as they are kept leave the database well formed as far as it is. -/
theorem wellFormed_kept_replaceTable (hd : d.kept.WellFormed) {t : Table} (ht : t ∈ d.tables)
    {rows : List Row} (hr : ∀ r ∈ rows, r.kept.Fits t.columns) :
    (d.replaceTable { t with rows := rows }).kept.WellFormed := by
  have htk : t.kept.WellFormed := hd.tables t.kept (List.mem_map_of_mem ht)
  rw [kept_replaceTable]
  refine hd.replaceTable (htk.withRows fun r hm => ?_)
  obtain ⟨r, hrow, rfl⟩ := List.mem_map.1 hm
  exact hr r hrow

theorem fits_kept_of_mem (hd : d.kept.WellFormed) {t : Table} (ht : t ∈ d.tables) {r : Row}
    (hr : r ∈ t.rows) : r.kept.Fits t.columns :=
  (hd.tables t.kept (List.mem_map_of_mem ht)).rows r.kept (List.mem_map_of_mem hr)

theorem Changes.wellFormed_kept (h : d.Changes d') (hd : d.kept.WellFormed) :
    d'.kept.WellFormed := by
  cases h with
  | createTable hc h =>
    have hp := forall_mem_of_mapM (fun _ _ => Column.isProper_make) hc
    obtain ⟨t, ht, h⟩ := bind_eq_ok_iff.1 h
    obtain ⟨hwf, -⟩ := Table.make_eq_ok hp ht
    obtain ⟨-, -, -, rfl⟩ := Table.make_eq_ok_iff.1 ht
    dsimp only at h
    split at h
    · cases h
    · rename_i hn
      cases h
      rw [← tableNames_kept] at hn
      have hd' := hd.append hwf hn
      rwa [kept, List.map_append]
  | dropTable h =>
    obtain ⟨t, -, h⟩ := bind_eq_ok_iff.1 h
    cases h
    have hs := (List.eraseP_sublist (p := fun u : Table => u.name == t.name) (l := d.tables)).map
      Table.kept
    exact ⟨hd.name, hd.nodup.sublist (hs.map Table.name), fun u hu => hd.tables u (hs.subset hu)⟩
  | addRow ht h =>
    obtain ⟨r, hr, h⟩ := bind_eq_ok_iff.1 h
    cases h
    refine wellFormed_kept_replaceTable hd ht (List.forall_mem_append.2 ⟨?_, ?_⟩)
    · exact fun r hm => fits_kept_of_mem hd ht hm
    · exact List.forall_mem_singleton.2 (Table.fits_kept_makeRow hr)
  | @updateRow t c v before after r r' ht hc hr h =>
    have hrows : ∀ r ∈ t.rows, r.kept.Fits t.columns := fun r hm => fits_kept_of_mem hd ht hm
    rw [hr, List.forall_mem_append, List.forall_mem_cons] at hrows
    obtain ⟨hb, hold, ha⟩ := hrows
    have hn := (hd.tables t.kept (List.mem_map_of_mem ht)).nodup
    have hnew := Row.fits_kept_update hn hold hc h
    exact wellFormed_kept_replaceTable hd ht
      (List.forall_mem_append.2 ⟨hb, List.forall_mem_cons.2 ⟨hnew, ha⟩⟩)
  | deleteRows ht selects =>
    refine wellFormed_kept_replaceTable hd ht fun r hm => ?_
    exact fits_kept_of_mem hd ht (List.mem_filter.1 hm).1

theorem Made.wellFormed_kept (h : d.Made) : d.kept.WellFormed := by
  induction h with
  | make h =>
    have hd := (Database.make_eq_ok h).1
    rwa [kept_eq_self_iff.2 hd.isFinite]
  | load h =>
    have hd := Document.wellFormed_load h
    rwa [kept_eq_self_iff.2 hd.isFinite]
  | step _ h ih => exact h.wellFormed_kept ih

end Database

namespace Database

variable {reader : NumeralReader} {d : Database}

theorem IsReadBack.isFinite (h : d.IsReadBack reader) : d.IsFinite :=
  fun t ht r hr cell hcell => (h t ht r hr cell hcell).isFinite

theorem isReadBack_iff (hr : reader.ReadsBack) : d.IsReadBack reader ↔ d.IsFinite :=
  forall₂_congr fun _ _ => forall₂_congr fun _ _ => forall₂_congr fun _ _ =>
    Value.isReadBack_iff hr

end Database

namespace Document

variable {reader : NumeralReader} {d e : Database}

theorem load_text_made_eq_ok_iff (hd : d.Made) :
    load (text d) reader = .ok e ↔ d.kept.ReadAs reader e := by
  rw [← Database.text_kept]
  exact load_text_eq_ok_iff hd.wellFormed_kept

theorem load_text_made_eq_self_iff (hd : d.Made) :
    load (text d) reader = .ok d ↔ d.IsReadBack reader := by
  have hself : d.IsFinite → (load (text d) reader = .ok d ↔ d.IsReadBack reader) := by
    intro hf
    have hk := hd.wellFormed_kept
    rw [Database.kept_eq_self_iff.2 hf] at hk
    exact load_text_eq_self_iff hk
  exact ⟨fun h => (hself (wellFormed_load h).isFinite).1 h, fun h => (hself h.isFinite).2 h⟩

/-- A value that a type accepts is read back and accepted again as it was, unless it is a number
that is not finite or is read from its text as another one. A number that is not finite was given as
a number to a column of doubles, and there is nothing in its place; all else is accepted again as it
is read. So a database that is made with the record model is loaded as what its document keeps of
it, with its numbers as they are read. Where every finite number is read from its text, what comes
back are the finite values, and the databases all of whose numbers are finite. -/
theorem load_accepted (reader : NumeralReader) (t : DataType) (v w : Value)
    (h : t.convert v = .ok w) :
    ((loadValue w.toJson.pretty reader).bind t.convert = .ok w ↔ w.IsReadBack reader) ∧
      (w.isFinite = false → t = .double ∧ v = w ∧
        (loadValue w.toJson.pretty reader).bind t.convert = .ok .null) ∧
      (∀ w', (loadValue w.toJson.pretty reader).bind t.convert = .ok w' ↔
        w.kept.ReadAs reader w') ∧
      (∀ d : Database, d.Made →
        (∀ e, load (text d) reader = .ok e ↔ d.kept.ReadAs reader e) ∧
        (load (text d) reader = .ok d ↔ d.IsReadBack reader)) ∧
      (reader.ReadsBack → (w.IsReadBack reader ↔ w.isFinite = true) ∧
        ∀ d : Database, d.IsReadBack reader ↔ d.IsFinite) := by
  have hread : ∀ w', (loadValue w.toJson.pretty reader).bind t.convert = .ok w' ↔
      w.kept.ReadAs reader w' := fun _ => convert_loadValue_pretty_eq_ok_iff h
  refine ⟨(hread w).trans Value.kept_readAs_self_iff, fun hw => ?_, hread,
    fun d hd => ⟨fun e => load_text_made_eq_ok_iff hd, load_text_made_eq_self_iff hd⟩,
    fun hr => ⟨Value.isReadBack_iff hr, fun d => Database.isReadBack_iff hr⟩⟩
  obtain ⟨ht, hv⟩ := DataType.eq_of_convert? (DataType.convert_eq_ok_iff.1 h) hw
  refine ⟨ht, hv, (hread .null).2 ?_⟩
  rw [Value.kept_of_not_isFinite hw]
  rfl

/-- Rows of an infinite number and of a minus zero. -/
def boundless : Database :=
  ⟨"d", [⟨"t", [⟨"a", .double⟩],
    [⟨[("a", .float (.infinity false))]⟩, ⟨[("a", .float (.zero true))]⟩]⟩]⟩

theorem made_boundless : boundless.Made := by
  have hstart : Database.make "d" = .ok ⟨"d", []⟩ := by decide
  have hcolumns : [("a", DataType.double)].mapM (fun s => Column.make s.1 s.2) =
      .ok [⟨"a", .double⟩] := by decide
  have hcreate : Database.createTable ⟨"d", []⟩ "t" [⟨"a", .double⟩] =
      .ok ⟨"d", [⟨"t", [⟨"a", .double⟩], []⟩]⟩ := by decide
  have hfirst : Table.addRow ⟨"t", [⟨"a", .double⟩], []⟩ [("a", .float (.infinity false))] =
      .ok ⟨"t", [⟨"a", .double⟩], [⟨[("a", .float (.infinity false))]⟩]⟩ := by decide
  have hsecond : Table.addRow ⟨"t", [⟨"a", .double⟩], [⟨[("a", .float (.infinity false))]⟩]⟩
      [("a", .string "-0")] = .ok ⟨"t", [⟨"a", .double⟩],
        [⟨[("a", .float (.infinity false))]⟩, ⟨[("a", .float (.zero true))]⟩]⟩ := by
    decide +kernel
  have htable := (Database.Made.make hstart).step (.createTable hcolumns hcreate)
  have hrow := htable.step (.addRow (List.mem_singleton_self _) hfirst)
  exact hrow.step (.addRow (List.mem_singleton_self _) hsecond)

theorem load_accepted_boundless :
    DataType.convert .double (.string "-0") = .ok (.float (.zero true)) ∧ boundless.Made ∧
      (loadValue (Value.float (.zero true)).toJson.pretty).bind (DataType.convert .double) =
        .ok (.float (.zero true)) ∧
      load (text boundless) = .ok ⟨"d", [⟨"t", [⟨"a", .double⟩],
        [⟨[("a", .null)]⟩, ⟨[("a", .float (.zero true))]⟩]⟩]⟩ := by
  have hc : DataType.convert .double (.string "-0") = .ok (.float (.zero true)) := by
    decide +kernel
  obtain ⟨hv, -, -, hd, hfinite⟩ := load_accepted .exact .double (.string "-0") _ hc
  have hr : boundless.kept.IsReadBack .exact :=
    ((hfinite NumeralReader.exact_readsBack).2 _).2 made_boundless.wellFormed_kept.isFinite
  refine ⟨hc, made_boundless, hv.2 ((hfinite NumeralReader.exact_readsBack).1.2 rfl), ?_⟩
  exact ((hd boundless made_boundless).1 _).2
    ((Database.readAs_self_iff made_boundless.wellFormed_kept).2 hr)

end Document

/-- Reads all digits as the nearest number, and takes the nearest number again when the power of
ten is put to it. -/
def NumeralReader.inTwoSteps : NumeralReader where
  read? numeral := (Decimal.read numeral.toList).map fun d =>
    let x := Binary64.ofRatio d.negative d.digits 1
    match d.power with
    | .ofNat n => .ofRatio d.negative (x.scaled * 10 ^ n) Binary64.unitsInOne
    | .negSucc n => .ofRatio d.negative x.scaled (10 ^ (n + 1) * Binary64.unitsInOne)

namespace Document

/-- Not every accepted value is read back, and not every database that is made is loaded: a number
that is not finite is lost, and a finite one may be read as another. -/
theorem infinite_not_loaded :
    (∃ t v w, DataType.convert t v = .ok w ∧ ∀ reader : NumeralReader,
      (loadValue w.toJson.pretty reader).bind t.convert ≠ .ok w) ∧
      (∃ d : Database, d.Made ∧ ∀ reader : NumeralReader, load (text d) reader ≠ .ok d) ∧
      ∃ x w', DataType.convert .double (.string "968.7302436888135") = .ok (.float x) ∧
        (loadValue (Value.float x).toJson.pretty .inTwoSteps).bind (DataType.convert .double) =
          .ok w' ∧ w' ≠ .float x := by
  have hc : DataType.convert .double (.float (.infinity false)) =
      .ok (.float (.infinity false)) := rfl
  refine ⟨⟨.double, .float (.infinity false), _, hc, fun reader h => ?_⟩,
    ⟨boundless, made_boundless, fun reader h => ?_⟩, ?_⟩
  · exact absurd ((convert_loadValue_pretty_eq_ok_iff hc).1 h) nofun
  · have hf := ((load_text_made_eq_self_iff made_boundless).1 h).isFinite
    exact absurd (hf _ (.head _) _ (.head _) _ (.head _)) (by decide)
  · have hd : DataType.convert .double (.string "968.7302436888135") =
        .ok (.float ⟨0x408E45D78A00CC84⟩) := by decide +kernel
    refine ⟨_, .float ⟨0x408E45D78A00CC85⟩, hd, (convert_loadValue_pretty_eq_ok_iff hd).2 ?_,
      by decide⟩
    exact ⟨_, by decide +kernel, rfl, rfl⟩

end Document

end TableStore

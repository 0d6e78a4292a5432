import TableStore.Proofs.DocumentRoundTrip

/-!
# Loading normalises

Which documents of the proper shape are loaded, and what they are loaded as. Names lose the white
space around them, tables and columns keep their order, and every row gets one cell for each column,
whatever the order of its own entries.
-/
namespace TableStore

open Text

/-! Lists side by side -/

section Lists

variable {α β γ : Type} {as : List α} {bs : List β} {cs : List γ}

theorem forall₂_congr_of {S : α → β → Prop} {P : β → γ → Prop} {Q : α → γ → Prop}
    (h : List.Forall₂ S as bs) (hq : ∀ a ∈ as, ∀ b ∈ bs, S a b → ∀ c, P b c ↔ Q a c) :
    List.Forall₂ P bs cs ↔ List.Forall₂ Q as cs := by
  induction h generalizing cs with
  | nil => simp
  | @cons a b _ _ hab _ ih =>
    have hb : ∀ c, P b c ↔ Q a c := hq a List.mem_cons_self b List.mem_cons_self hab
    have ih : ∀ cs, _ ↔ _ := fun cs => @ih cs fun a ha b hb =>
      hq a (List.mem_cons_of_mem _ ha) b (List.mem_cons_of_mem _ hb)
    simp only [List.forall₂_cons_left_iff, hb, ih]

theorem exists_forall₂_and {P : α → β → Prop} {Q : β → γ → Prop} :
    (∃ bs, List.Forall₂ P as bs ∧ List.Forall₂ Q bs cs) ↔
      List.Forall₂ (fun a c => ∃ b, P a b ∧ Q b c) as cs := by
  constructor
  · rintro ⟨bs, hp, hq⟩
    induction hp generalizing cs with
    | nil =>
      cases hq
      exact .nil
    | cons h _ ih =>
      cases hq with
      | cons h' hq => exact .cons ⟨_, h, h'⟩ (ih hq)
  · intro h
    induction h with
    | nil => exact ⟨[], .nil, .nil⟩
    | cons h _ ih =>
      obtain ⟨b, hp, hq⟩ := h
      obtain ⟨bs, hps, hqs⟩ := ih
      exact ⟨b :: bs, .cons hp hps, .cons hq hqs⟩

theorem exists_forall₂ {P : α → β → Prop} (h : ∀ a ∈ as, ∃ b, P a b) :
    ∃ bs, List.Forall₂ P as bs := by
  induction as with
  | nil => exact ⟨[], .nil⟩
  | cons a as ih =>
    obtain ⟨⟨b, hb⟩, has⟩ := List.forall_mem_cons.1 h
    obtain ⟨bs, hbs⟩ := ih has
    exact ⟨b :: bs, .cons hb hbs⟩

end Lists

/-! What is built -/

theorem properName_eq_ok_iff {kind : Named} {name n : String} :
    properName kind name = .ok n ↔ trim name ≠ "" ∧ n = trim name := by
  unfold properName
  dsimp only
  split
  · rename_i h
    simp [show trim name = "" by simpa using h]
  · rename_i h
    simp [show trim name ≠ "" by simpa using h, eq_comm]

namespace DataType

theorem convert?_null (t : DataType) : t.convert? .null = some .null := by
  cases t <;> rfl

theorem admits_of_convert? {t : DataType} {v w : Value} (h : t.convert? v = some w) :
    t.admits w = true := by
  by_cases hv : v = .null
  · subst hv
    rw [convert?_null] at h
    cases h
    cases t <;> rfl
  · exact admits_of_type? (type?_of_convert? hv h)

theorem name_injective : Function.Injective name := by
  intro t t' h
  cases t <;> cases t' <;> first | rfl | exact absurd h (by decide)

theorem ofName?_eq_some_iff {s : String} {t : DataType} : ofName? s = some t ↔ t.name = s := by
  constructor
  · intro h
    unfold ofName? at h
    simpa using List.find?_some h
  · rintro rfl
    exact ofName?_name t

end DataType

namespace Column

theorem make_eq_ok_iff {name : String} {type : DataType} {c : Column} :
    make name type = .ok c ↔ trim name ≠ "" ∧ c.name = trim name ∧ c.type = type := by
  obtain ⟨n, t⟩ := c
  rw [make, bind_eq_ok_iff]
  simp only [properName_eq_ok_iff]
  constructor
  · rintro ⟨_, ⟨hn, rfl⟩, h⟩
    cases h
    exact ⟨hn, rfl, rfl⟩
  · rintro ⟨hn, rfl, rfl⟩
    exact ⟨_, ⟨hn, rfl⟩, rfl⟩

/-- What a value is converted to always passes the check that follows. -/
theorem convert_eq_ok_iff {c : Column} {v w : Value} :
    c.convert v = .ok w ↔ c.type.convert? v = some w := by
  unfold convert
  split
  · rename_i h
    simp [h]
  · rename_i x h
    rw [if_pos (DataType.admits_of_convert? h), h]
    simp

/-- The cell is the column's own, with what the entry of its name is converted to, or with nothing
where there is no such entry. -/
def Receives (values : List (String × Value)) (c : Column) (cell : String × Value) : Prop :=
  cell.1 = c.name ∧
    ((∃ v, (c.name, v) ∈ values ∧ c.type.convert? v = some cell.2) ∨
      c.name ∉ values.map Prod.fst ∧ cell.2 = .null)

theorem receives_congr {values values' : List (String × Value)} (h : values.Perm values') :
    Receives values = Receives values' := by
  funext c cell
  simp only [Receives, h.mem_iff, (h.map Prod.fst).mem_iff]

variable {values : List (String × Value)}

theorem receives_iff (hn : (values.map Prod.fst).Nodup) {c : Column} {cell : String × Value} :
    c.Receives values cell ↔
      cell.1 = c.name ∧ c.convert ((values.lookup c.name).getD .null) = .ok cell.2 := by
  refine and_congr_right fun _ => ?_
  rw [convert_eq_ok_iff]
  cases hl : values.lookup c.name with
  | none =>
    have hk : c.name ∉ values.map Prod.fst := by
      intro hm
      obtain ⟨e, he, hc⟩ := List.mem_map.1 hm
      exact bne_iff_ne.1 (List.lookup_eq_none_iff.1 hl e he) hc.symm
    have hnone : ¬ ∃ v, (c.name, v) ∈ values ∧ c.type.convert? v = some cell.2 :=
      fun ⟨v, hv, _⟩ => hk (List.mem_map_of_mem (f := Prod.fst) hv)
    rw [Option.getD_none, DataType.convert?_null, or_iff_right hnone, and_iff_right hk,
      Option.some_inj, eq_comm]
  | some v =>
    have hm : (c.name, v) ∈ values := (NameMap.lookup_eq_some_iff_mem hn).1 hl
    have hk : c.name ∈ values.map Prod.fst := List.mem_map_of_mem (f := Prod.fst) hm
    have hv : ∀ v', (c.name, v') ∈ values ↔ v = v' := by
      intro v'
      rw [← NameMap.lookup_eq_some_iff_mem hn, hl, Option.some_inj]
    simp [hv, hk]

end Column

namespace Table

variable {name : String} {values : List (String × Value)}

theorem make_eq_ok_iff {columns : List Column} {t : Table} : make name columns = .ok t ↔
    trim name ≠ "" ∧ columns ≠ [] ∧ (columns.map Column.name).Nodup ∧
      t = ⟨trim name, columns, []⟩ := by
  constructor
  · intro h
    obtain ⟨n, hn, h⟩ := bind_eq_ok_iff.1 h
    obtain ⟨hne, rfl⟩ := properName_eq_ok_iff.1 hn
    dsimp only at h
    split at h
    · cases h
    · rename_i hc
      split at h
      · cases h
      · rename_i hr
        cases h
        exact ⟨hne, by simpa using hc, (repeatedName?_eq_none_iff.1 hr).1, rfl⟩
  · rintro ⟨hn, hc, hd, rfl⟩
    have hp : IsProper (trim name) := ⟨hn, trim_trim name⟩
    have ht := make_of_isProper hp hc hd
    rwa [make, properName_of_isProper hp, ← properName_eq_ok_iff.2 ⟨hn, rfl⟩] at ht

theorem makeRow_eq_ok_iff (hn : (values.map Prod.fst).Nodup) {t : Table} {r : Row} :
    t.makeRow values = .ok r ↔ (∀ v ∈ values, v.1 ∈ t.columnNames) ∧
      List.Forall₂ (Column.Receives values) t.columns r.cells := by
  have hf : (values.find? fun v => v.1 ∉ t.columnNames) = none ↔
      ∀ v ∈ values, v.1 ∈ t.columnNames := by
    simp
  have hr : Column.Receives values = fun c cell => cell.1 = c.name ∧
      c.convert ((values.lookup c.name).getD .null) = .ok cell.2 :=
    funext₂ fun c cell => propext (Column.receives_iff hn)
  rw [makeRow, bind_eq_ok_iff, ← hf, hr]
  simp only [makeCells_eq_ok_iff]
  constructor
  · rintro ⟨cells, hc, h⟩
    split at h
    · cases h
    · rename_i hnone
      cases h
      exact ⟨hnone, hc⟩
  · rintro ⟨hnone, hc⟩
    exact ⟨r.cells, hc, by rw [hnone]; rfl⟩

end Table

/-! Drafts -/

/-- A table as a document has it: no name is trimmed, and the types are only named. -/
structure TableDraft where
  name : String
  columns : List (String × String)
  rows : List (List (String × Value))

/-- A database as a document has it, without the keys of its tables. -/
structure DatabaseDraft where
  name : String
  tables : List TableDraft

namespace TableDraft

/-- No row has two values under one name. -/
def HasKeys (t : TableDraft) : Prop := ∀ values ∈ t.rows, (values.map Prod.fst).Nodup

/-- Each name is left with something when it is trimmed, and the columns with different things; the
types exist; and each value of a row stands under the name of a column that can take it. -/
structure Acceptable (t : TableDraft) : Prop where
  name : trim t.name ≠ ""
  columns_ne_nil : t.columns ≠ []
  columnNames : ∀ c ∈ t.columns, trim c.1 ≠ ""
  nodup : (t.columns.map fun c => trim c.1).Nodup
  types : ∀ c ∈ t.columns, ∃ type : DataType, type.name = c.2
  values : ∀ values ∈ t.rows, ∀ v ∈ values, ∃ c ∈ t.columns, trim c.1 = v.1 ∧
    ∃ (type : DataType) (w : Value), type.name = c.2 ∧ type.convert? v.2 = some w

/-- The column has the trimmed name and the type of that name. -/
def Becomes (c : String × String) (d : Column) : Prop := d.name = trim c.1 ∧ d.type.name = c.2

/-- The table has the trimmed names, the columns in order, and a row for each row, in order, with
the converted values. -/
structure Normalises (t : TableDraft) (u : Table) : Prop where
  name : u.name = trim t.name
  columns : List.Forall₂ Becomes t.columns u.columns
  rows : List.Forall₂ (fun values r => List.Forall₂ (Column.Receives values) u.columns r.cells)
    t.rows u.rows

variable {t : TableDraft} {u : Table}

theorem map_name_of_becomes {cs : List (String × String)} {ds : List Column}
    (h : List.Forall₂ Becomes cs ds) : ds.map Column.name = cs.map fun c => trim c.1 := by
  induction h with
  | nil => rfl
  | cons h _ ih => rw [List.map_cons, List.map_cons, h.1, ih]

/-- What the parts of a table are that is made of the draft. -/
theorem acceptable_and_normalises_iff (hk : t.HasKeys) : t.Acceptable ∧ t.Normalises u ↔
    (trim t.name ≠ "" ∧ u.columns ≠ [] ∧ u.columnNames.Nodup ∧ u.name = trim t.name) ∧
      List.Forall₂ (fun c d => trim c.1 ≠ "" ∧ Becomes c d) t.columns u.columns ∧
      List.Forall₂ (fun values r => (∀ v ∈ values, v.1 ∈ u.columnNames) ∧
        List.Forall₂ (Column.Receives values) u.columns r.cells) t.rows u.rows := by
  rw [List.forall₂_and_left, List.forall₂_and_left]
  constructor
  · rintro ⟨ha, hn⟩
    have hnames : u.columnNames = t.columns.map fun c => trim c.1 := map_name_of_becomes hn.columns
    have hne : u.columns ≠ [] := by
      rw [← List.length_pos_iff, ← hn.columns.length_eq, List.length_pos_iff]
      exact ha.columns_ne_nil
    refine ⟨⟨ha.name, hne, hnames ▸ ha.nodup, hn.name⟩, ⟨ha.columnNames, hn.columns⟩, ?_, hn.rows⟩
    intro values hvalues v hv
    obtain ⟨c, hc, hname, -⟩ := ha.values values hvalues v hv
    rw [hnames, ← hname]
    exact List.mem_map_of_mem hc
  · rintro ⟨⟨hname, hne, hd, hu⟩, ⟨hblank, hcols⟩, hknown, hrows⟩
    have hnames : u.columnNames = t.columns.map fun c => trim c.1 := map_name_of_becomes hcols
    refine ⟨⟨hname, ?_, hblank, hnames ▸ hd, ?_, ?_⟩, hu, hcols, hrows⟩
    · rw [← List.length_pos_iff, hcols.length_eq, List.length_pos_iff]
      exact hne
    · intro c hc
      obtain ⟨d, -, -, ht⟩ := exists_of_forall₂ hcols hc
      exact ⟨d.type, ht⟩
    · intro values hvalues v hv
      obtain ⟨c, hc, hcv⟩ := List.mem_map.1 (hnames ▸ hknown values hvalues v hv)
      obtain ⟨d, hdm, hdn, hdt⟩ := exists_of_forall₂ hcols hc
      obtain ⟨r, -, hr⟩ := exists_of_forall₂ hrows hvalues
      obtain ⟨cell, -, -, hcell⟩ := exists_of_forall₂ hr hdm
      have hdv : d.name = v.1 := hdn.trans hcv
      refine ⟨c, hc, hcv, d.type, cell.2, hdt, ?_⟩
      rcases hcell with ⟨v', hv', hw⟩ | ⟨hnot, -⟩
      · have he : v = (d.name, v') := List.inj_on_of_nodup_map (hk values hvalues) hv hv' hdv.symm
        rw [he]
        exact hw
      · exact absurd (List.mem_map_of_mem hv) (hdv ▸ hnot)

/-- A draft that is acceptable is that of a table. -/
theorem Acceptable.exists_normalises (ha : t.Acceptable) : ∃ u, t.Normalises u := by
  have hcols : ∀ c ∈ t.columns, ∃ d, Becomes c d := by
    intro c hc
    obtain ⟨type, ht⟩ := ha.types c hc
    exact ⟨⟨trim c.1, type⟩, rfl, ht⟩
  obtain ⟨ds, hds⟩ := exists_forall₂ hcols
  have hcell : ∀ values ∈ t.rows, ∀ d ∈ ds, ∃ cell, d.Receives values cell := by
    intro values hvalues d hd
    by_cases hm : d.name ∈ values.map Prod.fst
    · obtain ⟨v, hv, hvn⟩ := List.mem_map.1 hm
      obtain ⟨c, hc, hcv, type, w, ht, hw⟩ := ha.values values hvalues v hv
      obtain ⟨c', hc', hn', ht'⟩ := exists_of_forall₂ hds.flip hd
      have hcc : c = c' := List.inj_on_of_nodup_map ha.nodup hc hc' (by rw [hcv, hvn, hn'])
      have htype : d.type = type := DataType.name_injective (by rw [ht', ht, hcc])
      refine ⟨(d.name, w), rfl, .inl ⟨v.2, ?_, htype ▸ hw⟩⟩
      rw [← hvn]
      exact hv
    · exact ⟨(d.name, .null), rfl, .inr ⟨hm, rfl⟩⟩
  have hrows : ∀ values ∈ t.rows, ∃ r : Row, List.Forall₂ (Column.Receives values) ds r.cells := by
    intro values hvalues
    obtain ⟨cells, hc⟩ := exists_forall₂ (hcell values hvalues)
    exact ⟨⟨cells⟩, hc⟩
  obtain ⟨rs, hrs⟩ := exists_forall₂ hrows
  exact ⟨⟨trim t.name, ds, rs⟩, rfl, hds, hrs⟩

end TableDraft

namespace DatabaseDraft

structure Acceptable (d : DatabaseDraft) : Prop where
  name : trim d.name ≠ ""
  tables : ∀ t ∈ d.tables, t.Acceptable
  nodup : (d.tables.map fun t => trim t.name).Nodup

structure Normalises (d : DatabaseDraft) (e : Database) : Prop where
  name : e.name = trim d.name
  tables : List.Forall₂ TableDraft.Normalises d.tables e.tables

theorem map_name_of_normalises {ts : List TableDraft} {us : List Table}
    (h : List.Forall₂ TableDraft.Normalises ts us) :
    us.map Table.name = ts.map fun t => trim t.name := by
  induction h with
  | nil => rfl
  | cons h _ ih => rw [List.map_cons, List.map_cons, h.name, ih]

theorem Acceptable.exists_normalises {d : DatabaseDraft} (ha : d.Acceptable) :
    ∃ e, d.Normalises e := by
  obtain ⟨ts, hts⟩ := exists_forall₂ fun t ht => (ha.tables t ht).exists_normalises
  exact ⟨⟨trim d.name, ts⟩, rfl, hts⟩

end DatabaseDraft

namespace Document

/-! Shapes -/

section Shapes

variable (reader : NumeralReader)

/-- A value that is no array and no object, with numbers that are whole and fit in sixty-four bits
or are read as finite ones. -/
inductive IsScalar : Value → Json → Prop where
  | null : IsScalar .null .null
  | boolean (b : Bool) : IsScalar (.boolean b) (.boolean b)
  | number {n : String} {v : Value} (hj : Json.isNumeral n.toList = true)
      (h : reader.Denotes n v) : IsScalar v (.number n)
  | string (s : String) : IsScalar (.string s) (.string (some s))

def IsColumn (c : String × String) (j : Json) : Prop :=
  ∃ ms, j = .object ms ∧ AreFields ms ∧ (some "name", .string (some c.1)) ∈ ms ∧
    (some "type", .string (some c.2)) ∈ ms

/-- A row may have its values in any order. -/
def IsRow (values : List (String × Value)) (j : Json) : Prop :=
  ∃ ms values', j = .object ms ∧ AreFields ms ∧ values'.Perm values ∧
    List.Forall₂ (fun v m => m.1 = some v.1 ∧ IsScalar reader v.2 m.2) values' ms

def IsTable (t : TableDraft) (j : Json) : Prop :=
  ∃ ms, j = .object ms ∧ AreFields ms ∧ (some "name", .string (some t.name)) ∈ ms ∧
    (∃ cs, (some "columns", .array cs) ∈ ms ∧ List.Forall₂ IsColumn t.columns cs) ∧
    ((∃ rs, (some "rows", .array rs) ∈ ms ∧ List.Forall₂ (IsRow reader) t.rows rs) ∨
      some "rows" ∉ ms.map Prod.fst ∧ t.rows = [])

/-- An object with the fields of a database, in any order and maybe among others. The tables stand
under any keys. -/
def IsDatabase (d : DatabaseDraft) (j : Json) : Prop :=
  ∃ ms, j = .object ms ∧ AreFields ms ∧ (some "name", .string (some d.name)) ∈ ms ∧
    ((∃ ts, (some "tables", .object ts) ∈ ms ∧ AreFields ts ∧
        List.Forall₂ (fun t m => IsTable reader t m.2) d.tables ts) ∨
      some "tables" ∉ ms.map Prod.fst ∧ d.tables = [])

end Shapes

variable {reader : NumeralReader}

theorem readValue_of_isScalar {v : Value} {j : Json} (h : IsScalar reader v j) :
    readValue reader j = .ok v := by
  cases h with
  | number hj h => rw [readValue, (Value.ofNumeral?_eq_some_iff hj).2 h]
  | _ => rfl

theorem readType_eq_ok_iff {s : String} {t : DataType} :
    readType (.string (some s)) = .ok t ↔ t.name = s := by
  rw [readType, ← DataType.ofName?_eq_some_iff]
  cases DataType.ofName? s <;> simp

theorem readColumn_eq_ok_iff {c : String × String} {j : Json} (h : IsColumn c j)
    (hw : j.isWhole = true) {x : String × DataType} :
    readColumn j = .ok x ↔ x.1 = c.1 ∧ x.2.name = c.2 := by
  obtain ⟨ms, rfl, hf, hn, ht⟩ := h
  have hw := Json.membersWhole_eq_true_iff.1 hw
  have hname : readField "name" readText ms = .ok (some c.1) := readField_of_mem hf hn
  have htype : ∀ o, readField "type" readType ms = .ok o ↔ ∃ t, o = some t ∧ t.name = c.2 := by
    intro o
    rw [readField_of_mem hf ht, map_eq_ok_iff]
    simp only [readType_eq_ok_iff]
    exact exists_congr fun t => by rw [and_comm, eq_comm]
  obtain ⟨n, type⟩ := x
  rw [readColumn, bind_eq_ok_iff]
  simp only [ColumnFields.foldMembers_set hw, hname, htype]
  constructor
  · rintro ⟨⟨_, _⟩, ⟨h, t, rfl, ht⟩, hx⟩
    cases h
    cases hx
    exact ⟨rfl, ht⟩
  · rintro ⟨rfl, ht⟩
    exact ⟨⟨some c.1, some type⟩, ⟨rfl, type, rfl, ht⟩, rfl⟩

theorem readRow_of_isRow {values : List (String × Value)} {j : Json} (h : IsRow reader values j) :
    (values.map Prod.fst).Nodup ∧
      ∃ values', readRow reader j = .ok values' ∧ values'.Perm values := by
  obtain ⟨ms, values', rfl, hf, hp, hv⟩ := h
  have hkeys : values'.map (some ∘ Prod.fst) = ms.map Prod.fst := by
    clear hp hf
    induction hv with
    | nil => rfl
    | cons h _ ih => rw [List.map_cons, List.map_cons, h.1, ih, Function.comp_apply]
  refine ⟨(hp.map Prod.fst).nodup_iff.1 ?_, values', ?_, hp⟩
  · have hn := hf.nodup
    rw [← hkeys, ← List.map_map] at hn
    exact hn.of_map some
  · rw [readRow, readEntries_eq_ok_iff hf]
    exact (hv.imp fun v m h => ⟨h.1, readValue_of_isScalar h.2⟩).flip

/-! Tables -/

theorem makeTable_eq_ok_iff {name : String} {columns : List (String × DataType)}
    {rows : List (List (String × Value))} {u : Table} : makeTable name columns rows = .ok u ↔
      (trim name ≠ "" ∧ u.columns ≠ [] ∧ u.columnNames.Nodup ∧ u.name = trim name) ∧
        List.Forall₂ (fun x c => Column.make x.1 x.2 = .ok c) columns u.columns ∧
        List.Forall₂ (fun values r => Table.makeRow ⟨u.name, u.columns, []⟩ values = .ok r) rows
          u.rows := by
  obtain ⟨n, cs, rs⟩ := u
  simp only [← mapM_eq_ok_iff]
  rw [makeTable, bind_eq_ok_iff]
  constructor
  · rintro ⟨cs', hcs, h⟩
    obtain ⟨t, ht, h⟩ := bind_eq_ok_iff.1 h
    obtain ⟨hn, hne, hd, rfl⟩ := Table.make_eq_ok_iff.1 ht
    obtain ⟨rs', hrs, h⟩ := bind_eq_ok_iff.1 h
    cases h
    exact ⟨⟨hn, hne, hd, rfl⟩, hcs, hrs⟩
  · rintro ⟨⟨hn, hne, hd, rfl⟩, hcs, hrs⟩
    exact ⟨cs, hcs, bind_eq_ok_iff.2 ⟨_, Table.make_eq_ok_iff.2 ⟨hn, hne, hd, rfl⟩,
      bind_eq_ok_iff.2 ⟨rs, hrs, rfl⟩⟩⟩

/-- Columns are read and then named. -/
theorem exists_readItems_readColumn {columns : List (String × String)} {cs : List Json}
    (h : List.Forall₂ IsColumn columns cs) (hw : ∀ j ∈ cs, j.isWhole = true) {ds : List Column} :
    (∃ xs, readItems readColumn (.array cs) = .ok xs ∧
        List.Forall₂ (fun x c => Column.make x.1 x.2 = .ok c) xs ds) ↔
      List.Forall₂ (fun c d => trim c.1 ≠ "" ∧ TableDraft.Becomes c d) columns ds := by
  simp only [readItems, mapM_eq_ok_iff, exists_forall₂_and]
  refine forall₂_congr_of h fun c _ j hj hc d => ?_
  simp only [readColumn_eq_ok_iff hc (hw j hj), Column.make_eq_ok_iff]
  constructor
  · rintro ⟨⟨n, type⟩, ⟨rfl, ht⟩, hn, hd, rfl⟩
    exact ⟨hn, hd, ht⟩
  · rintro ⟨hn, hd, ht⟩
    exact ⟨(c.1, d.type), ⟨rfl, ht⟩, hn, hd, rfl⟩

theorem exists_readItems_readRow {rows : List (List (String × Value))} {rs : List Json}
    (h : List.Forall₂ (IsRow reader) rows rs) :
    ∃ rows', readItems (readRow reader) (.array rs) = .ok rows' ∧
      List.Forall₂ (fun values values' => values'.Perm values) rows rows' := by
  simp only [readItems, mapM_eq_ok_iff]
  induction h with
  | nil => exact ⟨[], .nil, .nil⟩
  | cons h _ ih =>
    obtain ⟨-, values', hr, hp⟩ := readRow_of_isRow h
    obtain ⟨rows', hrs, hps⟩ := ih
    exact ⟨values' :: rows', .cons hr hrs, .cons hp hps⟩

theorem IsTable.hasKeys {t : TableDraft} {j : Json} (h : IsTable reader t j) : t.HasKeys := by
  obtain ⟨ms, -, -, -, -, ⟨rs, -, hrows⟩ | ⟨-, hnone⟩⟩ := h
  · intro values hv
    obtain ⟨j, -, hr⟩ := exists_of_forall₂ hrows hv
    exact (readRow_of_isRow hr).1
  · rw [TableDraft.HasKeys, hnone]
    exact List.forall_mem_nil _

theorem readTable_eq_ok_iff {t : TableDraft} {j : Json} (h : IsTable reader t j)
    (hw : j.isWhole = true) {u : Table} :
    readTable reader j = .ok u ↔ t.Acceptable ∧ t.Normalises u := by
  have hk := h.hasKeys
  obtain ⟨ms, rfl, hf, hn, ⟨cs, hc, hcols⟩, hr⟩ := h
  have hw := Json.membersWhole_eq_true_iff.1 hw
  have hname : readField "name" readText ms = .ok (some t.name) := readField_of_mem hf hn
  have hcolumns : ∀ o, readField "columns" (readItems readColumn) ms = .ok o ↔
      ∃ xs, readItems readColumn (.array cs) = .ok xs ∧ some xs = o := by
    intro o
    rw [readField_of_mem hf hc, map_eq_ok_iff]
  have hrows : ∃ o, readField "rows" (readItems (readRow reader)) ms = .ok o ∧
      List.Forall₂ (fun values values' => values'.Perm values) t.rows (o.getD []) := by
    rcases hr with ⟨rs, hr, hrows⟩ | ⟨hno, hnone⟩
    · obtain ⟨rows', hrs, hps⟩ := exists_readItems_readRow hrows
      exact ⟨some rows', by rw [readField_of_mem hf hr, hrs]; rfl, hps⟩
    · exact ⟨none, readField_of_not_mem hf hno, by rw [hnone]; exact .nil⟩
  obtain ⟨o, ho, hps⟩ := hrows
  have hread : readTable reader (.object ms) = .ok u ↔
      ∃ xs, readItems readColumn (.array cs) = .ok xs ∧
        makeTable t.name xs (o.getD []) = .ok u := by
    rw [readTable, bind_eq_ok_iff]
    simp only [TableFields.foldMembers_set reader hw, hname, hcolumns, ho]
    constructor
    · rintro ⟨⟨_, _, _⟩, ⟨h, ⟨xs, hxs, rfl⟩, h'⟩, hm⟩
      cases h
      cases h'
      exact ⟨xs, hxs, hm⟩
    · rintro ⟨xs, hxs, hm⟩
      exact ⟨⟨some t.name, some xs, o⟩, ⟨rfl, ⟨xs, hxs, rfl⟩, rfl⟩, hm⟩
  have hmake : List.Forall₂
      (fun values r => Table.makeRow ⟨u.name, u.columns, []⟩ values = .ok r) (o.getD []) u.rows ↔
        List.Forall₂ (fun values r => (∀ v ∈ values, v.1 ∈ u.columnNames) ∧
          List.Forall₂ (Column.Receives values) u.columns r.cells) t.rows u.rows := by
    refine forall₂_congr_of hps fun values hv values' _ hp r => ?_
    have hn : (values'.map Prod.fst).Nodup := (hp.map Prod.fst).nodup_iff.2 (hk values hv)
    rw [Table.makeRow_eq_ok_iff hn, Column.receives_congr hp]
    simp only [hp.mem_iff]
    rfl
  rw [hread, TableDraft.acceptable_and_normalises_iff hk, ← hmake,
    ← exists_readItems_readColumn hcols (Json.itemsWhole_eq_true_iff.1 (hw _ hc))]
  simp only [makeTable_eq_ok_iff]
  constructor
  · rintro ⟨xs, hxs, hu, hm, hrs⟩
    exact ⟨hu, ⟨xs, hxs, hm⟩, hrs⟩
  · rintro ⟨hu, ⟨xs, hxs, hm⟩, hrs⟩
    exact ⟨xs, hxs, hu, hm, hrs⟩

/-! Databases -/

theorem makeDatabase_eq_ok_iff {name : String} {entries : List (String × Table)} {d : Database} :
    makeDatabase name entries = .ok d ↔ trim name ≠ "" ∧ d.name = trim name ∧
      d.tables = entries.map Prod.snd ∧ d.tableNames.Nodup := by
  obtain ⟨n, ts⟩ := d
  have hnames : (entries.map Prod.snd).map Table.name = entries.map fun t => t.2.name :=
    List.map_map
  simp only [makeDatabase, Database.make, bind_eq_ok_iff, properName_eq_ok_iff]
  constructor
  · rintro ⟨_, ⟨_, ⟨hn, rfl⟩, h₀⟩, h⟩
    cases h₀
    obtain ⟨hd, he⟩ := (foldlM_addTable_eq_ok_iff (d := ⟨_, []⟩) List.nodup_nil).1 h
    cases he
    refine ⟨hn, rfl, rfl, ?_⟩
    simpa [Database.tableNames, hnames] using hd
  · rintro ⟨hn, rfl, rfl, hd⟩
    refine ⟨⟨trim name, []⟩, ⟨trim name, ⟨hn, rfl⟩, rfl⟩, ?_⟩
    rw [foldlM_addTable_eq_ok_iff (d := ⟨_, []⟩) List.nodup_nil, ← hnames]
    exact ⟨hd, rfl⟩

/-- The tables of a document are read in its order. -/
theorem exists_readEntries_readTable {tables : List TableDraft} {ms : List (JsonText × Json)}
    (hf : AreFields ms) (h : List.Forall₂ (fun t m => IsTable reader t m.2) tables ms)
    (hw : ∀ m ∈ ms, m.2.isWhole = true) {us : List Table} :
    (∃ es, readEntries (readTable reader) (.object ms) = .ok es ∧ es.map Prod.snd = us) ↔
      List.Forall₂ (fun t u => t.Acceptable ∧ t.Normalises u) tables us := by
  have hsnd : ∀ es : List (String × Table), es.map Prod.snd = us ↔
      List.Forall₂ (fun e u => e.2 = u) es us := by
    intro es
    rw [← List.forall₂_map_left_iff (R := Eq), List.forall₂_eq_eq_eq]
  simp only [readEntries_eq_ok_iff hf, hsnd, exists_forall₂_and]
  refine forall₂_congr_of h fun t _ m hm ht u => ?_
  rw [← readTable_eq_ok_iff ht (hw m hm)]
  constructor
  · rintro ⟨e, ⟨-, he⟩, rfl⟩
    exact he
  · intro hu
    obtain ⟨k, hk⟩ := Option.isSome_iff_exists.1 (hf.keys m hm)
    exact ⟨(k, u), ⟨hk, hu⟩, rfl⟩

theorem readDatabase_eq_ok_iff {d : DatabaseDraft} {j : Json} (h : IsDatabase reader d j)
    (hw : j.isWhole = true) {e : Database} :
    readDatabase reader j = .ok e ↔ d.Acceptable ∧ d.Normalises e := by
  obtain ⟨ms, rfl, hf, hn, ht⟩ := h
  have hw := Json.membersWhole_eq_true_iff.1 hw
  have hname : readField "name" readText ms = .ok (some d.name) := readField_of_mem hf hn
  have htables : (∃ o, readField "tables" (readEntries (readTable reader)) ms = .ok o ∧
      (o.getD []).map Prod.snd = e.tables) ↔
        List.Forall₂ (fun t u => t.Acceptable ∧ t.Normalises u) d.tables e.tables := by
    rcases ht with ⟨ts, hts, hf', htables⟩ | ⟨hno, hnone⟩
    · have hw' := Json.membersWhole_eq_true_iff.1 (hw _ hts)
      rw [← exists_readEntries_readTable hf' htables hw', readField_of_mem hf hts]
      simp [map_eq_ok_iff]
    · rw [readField_of_not_mem hf hno, hnone]
      simp [eq_comm]
  have hread : readDatabase reader (.object ms) = .ok e ↔ (trim d.name ≠ "" ∧ e.name = trim d.name ∧
      e.tableNames.Nodup) ∧ ∃ o, readField "tables" (readEntries (readTable reader)) ms = .ok o ∧
        (o.getD []).map Prod.snd = e.tables := by
    rw [readDatabase, bind_eq_ok_iff]
    simp only [DatabaseFields.foldMembers_set reader hw, hname]
    constructor
    · rintro ⟨⟨_, o⟩, ⟨h, ho⟩, hm⟩
      cases h
      obtain ⟨hb, hen, het, hd⟩ := makeDatabase_eq_ok_iff.1 hm
      exact ⟨⟨hb, hen, hd⟩, o, ho, het.symm⟩
    · rintro ⟨⟨hb, hen, hd⟩, o, ho, het⟩
      exact ⟨⟨some d.name, o⟩, ⟨rfl, ho⟩, makeDatabase_eq_ok_iff.2 ⟨hb, hen, het.symm, hd⟩⟩
  rw [hread, htables, List.forall₂_and_left, Database.tableNames]
  constructor
  · rintro ⟨⟨hb, hen, hd⟩, ha, ht⟩
    rw [DatabaseDraft.map_name_of_normalises ht] at hd
    exact ⟨⟨hb, ha, hd⟩, hen, ht⟩
  · rintro ⟨⟨hb, ha, hd⟩, hen, ht⟩
    rw [← DatabaseDraft.map_name_of_normalises ht] at hd
    exact ⟨⟨hb, hen, hd⟩, ha, ht⟩

/-- A document that has the shape of a database is loaded if and only if the names, the types and
the values in it are acceptable, and as what it normalises to. It does not matter how else it is
written: any other text for the same database is loaded as the same. -/
theorem load_exact {d : DatabaseDraft} {text : String} {j : Json}
    (ht : Json.read text = (j, false)) (hw : j.isWhole = true)
    (hj : IsDatabase reader d j) :
    ((∃ e, load text reader = .ok e) ↔ d.Acceptable) ∧
      (∀ e, load text reader = .ok e ↔ d.Acceptable ∧ d.Normalises e) ∧
      ∀ text' j', Json.read text' = (j', false) → j'.isWhole = true → IsDatabase reader d j' →
        ∀ e, load text' reader = .ok e ↔ load text reader = .ok e := by
  have hload : ∀ {text j}, Json.read text = (j, false) → j.isWhole = true →
      IsDatabase reader d j → ∀ e, load text reader = .ok e ↔ d.Acceptable ∧ d.Normalises e := by
    intro text j ht hw hj e
    rw [← readDatabase_eq_ok_iff hj hw, load, ht]
    constructor
    · intro h
      obtain ⟨_, hr, he⟩ := bind_eq_ok_iff.1 h
      cases he
      exact hr
    · exact fun h => bind_eq_ok_iff.2 ⟨e, h, rfl⟩
  refine ⟨⟨?_, ?_⟩, hload ht hw hj, fun text' j' ht' hw' hj' e => ?_⟩
  · rintro ⟨e, he⟩
    exact ((hload ht hw hj e).1 he).1
  · intro ha
    obtain ⟨e, he⟩ := ha.exists_normalises
    exact ⟨e, (hload ht hw hj e).2 ⟨ha, he⟩⟩
  · rw [hload ht' hw' hj', hload ht hw hj]

/-- A database as a document may have it that was written by hand. -/
def handwritten : DatabaseDraft :=
  ⟨" d", [⟨"t ", [(" a", "INTEGER"), ("b", "DOUBLE")],
    [[("a", .float ⟨0x4004000000000000⟩), ("b", .integer 1)], []]⟩]⟩

def handwrittenTree : Json :=
  .object [(some "tables", .object [(some "x", .object [
      (some "rows", .array [.object [(some "b", .number "1"), (some "a", .number "2.5")],
        .object []]),
      (some "name", .string (some "t ")),
      (some "columns", .array [
        .object [(some "type", .string (some "INTEGER")), (some "name", .string (some " a"))],
        .object [(some "name", .string (some "b")), (some "type", .string (some "DOUBLE"))]])])]),
    (some "version", .number "2"), (some "name", .string (some " d"))]

theorem isDatabase_handwritten : IsDatabase .exact handwritten handwrittenTree := by
  have hfirst : IsColumn (" a", "INTEGER")
      (.object [(some "type", .string (some "INTEGER")), (some "name", .string (some " a"))]) :=
    ⟨_, rfl, ⟨by decide, by decide⟩, by simp, by simp⟩
  have hsecond : IsColumn ("b", "DOUBLE")
      (.object [(some "name", .string (some "b")), (some "type", .string (some "DOUBLE"))]) :=
    ⟨_, rfl, ⟨by decide, by decide⟩, by simp, by simp⟩
  have hfraction : NumeralReader.exact.Denotes "2.5" (.float ⟨0x4004000000000000⟩) :=
    .float (fun i h => absurd (Value.all_integerText i) (h ▸ by decide)) (by decide +kernel)
      (by decide)
  have hfull : IsRow .exact [("a", .float ⟨0x4004000000000000⟩), ("b", .integer 1)]
      (.object [(some "b", .number "1"), (some "a", .number "2.5")]) :=
    ⟨_, [("b", .integer 1), ("a", .float ⟨0x4004000000000000⟩)], rfl, ⟨by decide, by decide⟩,
      .swap _ _ _, .cons ⟨rfl, .number rfl (.integer 1)⟩
        (.cons ⟨rfl, .number rfl hfraction⟩ .nil)⟩
  have hempty : IsRow .exact [] (.object []) := ⟨[], [], rfl, ⟨by simp, by simp⟩, .nil, .nil⟩
  refine ⟨_, rfl, ⟨by decide, by decide⟩, by simp [handwritten], .inl ⟨_, by simp; rfl, ?_, ?_⟩⟩
  · exact ⟨by decide, by decide⟩
  · refine .cons ⟨_, rfl, ⟨by decide, by decide⟩, by simp, ⟨_, by simp; rfl, ?_⟩, ?_⟩ .nil
    · exact .cons hfirst (.cons hsecond .nil)
    · exact .inl ⟨_, by simp, .cons hfull (.cons hempty .nil)⟩

theorem acceptable_handwritten : handwritten.Acceptable := by
  refine ⟨by decide, fun t ht => ?_, by decide⟩
  cases List.mem_singleton.1 ht
  refine ⟨by decide, by decide, by decide, by decide, ?_, ?_⟩
  · intro c hc
    rcases List.mem_pair.1 hc with rfl | rfl
    · exact ⟨.integer, rfl⟩
    · exact ⟨.double, rfl⟩
  · intro values hvalues v hv
    rcases List.mem_pair.1 hvalues with rfl | rfl
    · rcases List.mem_pair.1 hv with rfl | rfl
      · exact ⟨(" a", "INTEGER"), by decide, by decide, .integer, .integer 2, rfl,
          by decide +kernel⟩
      · exact ⟨("b", "DOUBLE"), by decide, by decide, .double, .float (.ofInt 1), rfl, rfl⟩
    · cases hv

theorem load_exact_handwritten :
    load handwrittenTree.pretty = .ok ⟨"d", [⟨"t", [⟨"a", .integer⟩, ⟨"b", .double⟩],
      [⟨[("a", .integer 2), ("b", .float (.ofInt 1))]⟩, ⟨[("a", .null), ("b", .null)]⟩]⟩]⟩ := by
  have ht : Json.read handwrittenTree.pretty = (handwrittenTree, false) := Json.read_pretty rfl
  refine ((load_exact ht rfl isDatabase_handwritten).2.1 _).2
    ⟨acceptable_handwritten, by decide, .cons ⟨by decide, ?_, .cons ?_ (.cons ?_ .nil)⟩ .nil⟩
  · exact .cons ⟨by decide, rfl⟩ (.cons ⟨by decide, rfl⟩ .nil)
  · exact .cons ⟨rfl, .inl ⟨.float ⟨0x4004000000000000⟩, by decide, by decide +kernel⟩⟩
      (.cons ⟨rfl, .inl ⟨.integer 1, by decide, rfl⟩⟩ .nil)
  · exact .cons ⟨rfl, .inr ⟨by decide, rfl⟩⟩ (.cons ⟨rfl, .inr ⟨by decide, rfl⟩⟩ .nil)

end Document

end TableStore

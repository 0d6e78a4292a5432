import TableStore.Connection
import TableStore.Proofs.CatalogChange

/-!
# Loaded databases

Whatever a text holds, a database that is loaded from it is well formed, and so is the catalog of
the databases that a storage holds.
-/
namespace TableStore

namespace Document

theorem foldMembers_invariant {σ : Type} {step : σ → String → Json → Except Error σ} {p : σ → Prop}
    (hp : ∀ s k j s', p s → step s k j = .ok s' → p s') {ms : List (JsonText × Json)} {s s' : σ}
    (hs : p s) (h : foldMembers step s ms = .ok s') : p s' := by
  induction ms generalizing s with
  | nil =>
    cases h
    exact hs
  | cons m ms ih =>
    obtain ⟨key, j⟩ := m
    cases key with
    | none => cases h
    | some k =>
      obtain ⟨s₁, h₁, h⟩ := bind_eq_ok_iff.1 h
      exact ih (hp s k j s₁ hs h₁) h

theorem once_eq_ok {α : Type} {old o : Option α} {new : Except Error α} (h : once old new = .ok o) :
    ∃ x, new = .ok x ∧ o = some x := by
  cases old with
  | some y => cases h
  | none =>
    obtain ⟨x, hx, rfl⟩ := map_eq_ok_iff.1 h
    exact ⟨x, hx, rfl⟩

theorem passOver_eq_ok {σ : Type} {s s' : σ} {j : Json} (h : passOver s j = .ok s') : s' = s := by
  unfold passOver at h
  split at h <;> cases h
  rfl

theorem mem_putEntry {α : Type} {key : String} {x : α} {es : List (String × α)} {e : String × α}
    (h : e ∈ putEntry key x es) : e = (key, x) ∨ e ∈ es := by
  induction es with
  | nil => exact .inl (List.mem_singleton.1 h)
  | cons f fs ih =>
    obtain ⟨k, y⟩ := f
    unfold putEntry at h
    split at h
    · rcases List.mem_cons.1 h with h | h
      · exact .inl h
      · exact .inr (List.mem_cons_of_mem _ h)
    · rcases List.mem_cons.1 h with rfl | h
      · exact .inr List.mem_cons_self
      · exact (ih h).imp_right (List.mem_cons_of_mem _)

theorem readEntries_eq_ok {α : Type} {value : Json → Except Error α} {p : α → Prop}
    (hp : ∀ j x, value j = .ok x → p x) {j : Json} {es : List (String × α)}
    (h : readEntries value j = .ok es) : ∀ e ∈ es, p e.2 := by
  unfold readEntries at h
  split at h
  · refine foldMembers_invariant (p := fun es => ∀ e ∈ es, p e.2) ?_ (by simp) h
    intro es k j es' hes hs e he
    obtain ⟨x, hx, hs⟩ := bind_eq_ok_iff.1 hs
    cases hs
    rcases mem_putEntry he with rfl | he
    · exact hp j x hx
    · exact hes e he
  · cases h

theorem readItems_eq_ok {α : Type} {item : Json → Except Error α} {p : α → Prop}
    (hp : ∀ j x, item j = .ok x → p x) {j : Json} {xs : List α} (h : readItems item j = .ok xs) :
    ∀ x ∈ xs, p x := by
  unfold readItems at h
  split at h
  · exact forall_mem_of_mapM hp h
  · cases h

variable {reader : NumeralReader}

theorem isFinite_float? {numeral : String} {v : Value}
    (h : Value.ofNumeral?.float? reader numeral = some v) : v.isFinite = true := by
  obtain ⟨x, hx, rfl⟩ := Option.map_eq_some_iff.1 h
  exact (Option.filter_eq_some_iff.1 hx).2

theorem isFinite_ofNumeral? {numeral : String} {v : Value}
    (h : Value.ofNumeral? reader numeral = some v) : v.isFinite = true := by
  unfold Value.ofNumeral? at h
  split at h
  · split at h
    · cases h
      rfl
    · exact isFinite_float? h
  · exact isFinite_float? h

theorem isFinite_readValue {j : Json} {v : Value} (h : readValue reader j = .ok v) :
    v.isFinite = true := by
  unfold readValue at h
  split at h
  · cases h
    rfl
  · cases h
    rfl
  · split at h
    · rename_i hv
      cases h
      exact isFinite_ofNumeral? hv
    · cases h
  · cases h
    rfl
  · cases h

/-- Cells as they are read, before a table brings them to its columns. -/
def Readable (values : List (String × Value)) : Prop := ∀ v ∈ values, v.2.isFinite = true

theorem readRow_eq_ok {j : Json} {values : List (String × Value)}
    (h : readRow reader j = .ok values) : Readable values :=
  readEntries_eq_ok (fun _ _ => isFinite_readValue) h

theorem makeTable_eq_ok {name : String} {columns : List (String × DataType)}
    {rows : List (List (String × Value))} (hr : ∀ values ∈ rows, Readable values) {t : Table}
    (h : makeTable name columns rows = .ok t) : t.WellFormed := by
  obtain ⟨cs, hcs, h⟩ := bind_eq_ok_iff.1 h
  obtain ⟨t₀, ht, h⟩ := bind_eq_ok_iff.1 h
  obtain ⟨rs, hrs, h⟩ := bind_eq_ok_iff.1 h
  cases h
  have hc := forall_mem_of_mapM (fun _ _ => Column.isProper_make) hcs
  refine (Table.make_eq_ok hc ht).1.withRows fun r hm => ?_
  obtain ⟨values, hv, hmake⟩ := mem_of_mapM hrs hm
  exact Table.makeRow_eq_ok (hr values hv) hmake

theorem TableFields.rows_set {f f' : TableFields} {key : String} {j : Json}
    (hf : ∀ values ∈ f.rows.getD [], Readable values) (h : f.set reader key j = .ok f') :
    ∀ values ∈ f'.rows.getD [], Readable values := by
  unfold TableFields.set at h
  split at h
  · obtain ⟨o, -, h⟩ := bind_eq_ok_iff.1 h
    cases h
    exact hf
  · split at h
    · obtain ⟨o, -, h⟩ := bind_eq_ok_iff.1 h
      cases h
      exact hf
    · split at h
      · obtain ⟨o, ho, h⟩ := bind_eq_ok_iff.1 h
        cases h
        obtain ⟨rows, hr, rfl⟩ := once_eq_ok ho
        exact readItems_eq_ok (fun _ _ => readRow_eq_ok) hr
      · rw [passOver_eq_ok h]
        exact hf

theorem readTable_eq_ok {j : Json} {t : Table} (h : readTable reader j = .ok t) :
    t.WellFormed := by
  unfold readTable at h
  split at h
  · obtain ⟨f, hf, h⟩ := bind_eq_ok_iff.1 h
    have hr := foldMembers_invariant (p := fun f => ∀ values ∈ f.rows.getD [], Readable values)
      (fun _ _ _ _ => TableFields.rows_set) (by simp) hf
    split at h
    · exact makeTable_eq_ok hr h
    · cases h
  · obtain ⟨n, -, h⟩ := bind_eq_ok_iff.1 h
    obtain ⟨cs, -, h⟩ := bind_eq_ok_iff.1 h
    exact makeTable_eq_ok (by simp) h
  · obtain ⟨n, -, h⟩ := bind_eq_ok_iff.1 h
    obtain ⟨cs, -, h⟩ := bind_eq_ok_iff.1 h
    obtain ⟨rs, hr, h⟩ := bind_eq_ok_iff.1 h
    exact makeTable_eq_ok (readItems_eq_ok (fun _ _ => readRow_eq_ok) hr) h
  · cases h

theorem foldlM_addTable_eq_ok {tables : List (String × Table)} (ht : ∀ t ∈ tables, t.2.WellFormed)
    {d d' : Database} (hd : d.WellFormed)
    (h : tables.foldlM (fun d t => addTable d t.2) d = .ok d') : d'.WellFormed := by
  induction tables generalizing d with
  | nil =>
    cases h
    exact hd
  | cons t ts ih =>
    obtain ⟨ht, hts⟩ := List.forall_mem_cons.1 ht
    rw [List.foldlM_cons] at h
    obtain ⟨d₁, h₁, h⟩ := bind_eq_ok_iff.1 h
    unfold addTable at h₁
    split at h₁
    · cases h₁
    · rename_i hn
      cases h₁
      exact ih hts (hd.append ht hn) h

theorem makeDatabase_eq_ok {name : String} {tables : List (String × Table)}
    (ht : ∀ t ∈ tables, t.2.WellFormed) {d : Database} (h : makeDatabase name tables = .ok d) :
    d.WellFormed := by
  obtain ⟨d₀, h₀, h⟩ := bind_eq_ok_iff.1 h
  exact foldlM_addTable_eq_ok ht (Database.make_eq_ok h₀).1 h

theorem DatabaseFields.tables_set {f f' : DatabaseFields} {key : String} {j : Json}
    (hf : ∀ t ∈ f.tables.getD [], t.2.WellFormed) (h : f.set reader key j = .ok f') :
    ∀ t ∈ f'.tables.getD [], t.2.WellFormed := by
  unfold DatabaseFields.set at h
  split at h
  · obtain ⟨o, -, h⟩ := bind_eq_ok_iff.1 h
    cases h
    exact hf
  · split at h
    · obtain ⟨o, ho, h⟩ := bind_eq_ok_iff.1 h
      cases h
      obtain ⟨ts, hts, rfl⟩ := once_eq_ok ho
      exact readEntries_eq_ok (fun _ _ => readTable_eq_ok) hts
    · rw [passOver_eq_ok h]
      exact hf

theorem readDatabase_eq_ok {j : Json} {d : Database} (h : readDatabase reader j = .ok d) :
    d.WellFormed := by
  unfold readDatabase at h
  split at h
  · obtain ⟨f, hf, h⟩ := bind_eq_ok_iff.1 h
    have ht := foldMembers_invariant (p := fun f => ∀ t ∈ f.tables.getD [], t.2.WellFormed)
      (fun _ _ _ _ => DatabaseFields.tables_set) (by simp) hf
    split at h
    · exact makeDatabase_eq_ok ht h
    · cases h
  · obtain ⟨n, -, h⟩ := bind_eq_ok_iff.1 h
    exact makeDatabase_eq_ok (by simp) h
  · obtain ⟨n, -, h⟩ := bind_eq_ok_iff.1 h
    obtain ⟨ts, hts, h⟩ := bind_eq_ok_iff.1 h
    split at h
    · exact makeDatabase_eq_ok (readEntries_eq_ok (fun _ _ => readTable_eq_ok) hts) h
    · cases h
  · cases h

theorem wellFormed_load {text : String} {d : Database} (h : load text reader = .ok d) :
    d.WellFormed := by
  obtain ⟨d', hd, h⟩ := bind_eq_ok_iff.1 h
  split at h
  · cases h
  · cases h
    exact readDatabase_eq_ok hd

end Document

namespace Catalog

theorem get?_foldl_insert (ds : List Database) (m : NameMap Database) (name : String) :
    (ds.foldl (fun m d => if m.contains d.name then m else m.insert d.name d) m).get? name =
      (m.get? name).or (ds.find? fun d => d.name == name) := by
  induction ds generalizing m with
  | nil => simp
  | cons d ds ih =>
    rw [List.foldl_cons, ih]
    by_cases hn : d.name = name
    · subst hn
      cases hg : m.get? d.name with
      | some e => simp [NameMap.contains, hg]
      | none => simp [NameMap.contains, hg]
    · have hne : (d.name == name) = false := beq_eq_false_iff_ne.2 hn
      rw [List.find?_cons, hne]
      split
      · rfl
      · rw [NameMap.get?_insert_of_ne m d (Ne.symm hn)]

/-- Under each name there is the first database that has it. -/
theorem get?_ofDatabases (ds : List Database) (name : String) :
    (ofDatabases ds).databases.get? name = ds.find? fun d => d.name == name :=
  get?_foldl_insert ds .empty name

theorem wellFormed_ofDatabases {ds : List Database} (h : ∀ d ∈ ds, d.WellFormed) :
    (ofDatabases ds).WellFormed := by
  constructor
  · intro name d hd
    rw [get?_ofDatabases] at hd
    exact ⟨by simpa using List.find?_some hd, h d (List.mem_of_find?_eq_some hd)⟩
  · intro name hn
    cases hn

end Catalog

theorem Store.wellFormed_databases {s : Store} {reader : NumeralReader} :
    ∀ d ∈ s.databases reader, d.WellFormed := by
  intro d hd
  obtain ⟨text, -, hl⟩ := List.mem_filterMap.1 hd
  exact Document.wellFormed_load (toOption_eq_some_iff.1 hl)

theorem Session.open_eq_ok {storage : Storage} {s : Session} (h : Session.open storage = .ok s) :
    storage.faults.load = none ∧
      s = ⟨Catalog.ofDatabases (storage.store.databases storage.reader), storage⟩ := by
  obtain ⟨ds, hds, h⟩ := bind_eq_ok_iff.1 h
  unfold Storage.load at hds
  split at hds
  · cases hds
  · rename_i hf
    cases hds
    cases h
    exact ⟨hf, rfl⟩

/-- A session starts from a well-formed catalog, whatever the storage holds. -/
theorem Session.wellFormed_open {storage : Storage} {s : Session}
    (h : Session.open storage = .ok s) : s.catalog.WellFormed := by
  obtain ⟨-, rfl⟩ := Session.open_eq_ok h
  exact Catalog.wellFormed_ofDatabases Store.wellFormed_databases

end TableStore

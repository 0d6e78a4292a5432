import TableStore.Proofs.Durability
import TableStore.Proofs.Overwriting

/-!
# Containment

Under which names a storage is written to. A statement brings in file stems only, but a document is
taken with whatever name is in it. So the calls of a run are for file stems and for the names in
the documents that were there at first, and on a storage where these are file stems as well no file
is written or removed but those of the directory itself.
-/
namespace TableStore

/-- The names that with an ending are those of files in one folder, whichever way slashes lean. -/
structure IsFileStem (name : String) : Prop where
  ne_empty : name ≠ ""
  ne_dot : name ≠ "."
  ne_dots : name ≠ ".."
  noSlash : '/' ∉ name.toList
  noBackslash : '\\' ∉ name.toList

theorem isFileStem_iff {name : String} :
    IsFileStem name ↔ name ≠ "" ∧ Catalog.isFitName name = true := by
  simp only [Catalog.isFitName, Bool.and_eq_true, bne_iff_ne, Bool.not_eq_true',
    List.contains_eq_mem, decide_eq_false_iff_not]
  constructor
  · intro h
    exact ⟨h.ne_empty, ⟨⟨h.ne_dot, h.ne_dots⟩, h.noSlash⟩, h.noBackslash⟩
  · rintro ⟨he, ⟨⟨hd, hds⟩, hs⟩, hb⟩
    exact ⟨he, hd, hds, hs, hb⟩

namespace IsFileStem

variable {name : String}

theorem slash_notMem_fileName (h : IsFileStem name) :
    '/' ∉ (Directory.fileName name).toList := by
  rw [Directory.toList_fileName, List.mem_append]
  rintro (hm | hm)
  · exact h.noSlash hm
  · simp at hm

/-- A file stem leads to a file of the directory itself. -/
theorem locate (h : IsFileStem name) {dir : Directory} {place : Place} {file : String}
    (hl : dir.locate name = .ok (place, file)) :
    place = .inside ∧ file = Directory.fileName name := by
  rcases Directory.locate_cases dir h.slash_notMem_fileName with ho | ⟨e, -, he⟩
  · cases ho.symm.trans hl
    exact ⟨rfl, rfl⟩
  · cases he.symm.trans hl

end IsFileStem

/-! One call -/

namespace Store

/-- Where a directory is, and the files that were put in other places than it. -/
def outside : Store → List String × List (Place × String)
  | memory _ => ([], [])
  | directory dir => (dir.location, dir.elsewhere)

variable {s s' : Store} {reader : NumeralReader}

theorem documentAt?_save {d : Database} (h : s.save d = .ok s') {key text : String}
    (hk : s'.documentAt? key = some text) :
    text = Document.text d ∨ s.documentAt? key = some text := by
  cases s with
  | memory docs =>
    cases h
    rw [documentAt?, NameMap.get?_insert] at hk
    split at hk
    · cases hk
      exact .inl rfl
    · exact .inr hk
  | directory dir =>
    obtain ⟨dir', hd, rfl⟩ := map_eq_ok_iff.1 h
    obtain ⟨p, file, -, -, rfl⟩ := Directory.save_eq_ok_iff.1 hd
    rw [documentAt?_put] at hk
    split at hk
    · cases hk
      exact .inl rfl
    · exact .inr hk

theorem documentAt?_remove {name : String} (h : s.remove name = .ok s') {key text : String}
    (hk : s'.documentAt? key = some text) : s.documentAt? key = some text := by
  cases s with
  | memory docs =>
    cases h
    rw [documentAt?, NameMap.get?_erase] at hk
    split at hk
    · cases hk
    · exact hk
  | directory dir =>
    obtain ⟨dir', hd, rfl⟩ := map_eq_ok_iff.1 h
    unfold Directory.remove at hd
    split at hd
    · cases hd
      exact hk
    · cases hd
    · split at hd
      · cases hd
      · cases hd
        rw [documentAt?_take] at hk
        split at hk
        · cases hk
        · exact hk

/-- What is saved is all that can be read in addition, wherever it went. -/
theorem mem_databases_of_save {d e : Database} (hd : d.WellFormed) (h : s.save d = .ok s')
    (he : e ∈ s'.databases reader) : d.ReadAs reader e ∨ e ∈ s.databases reader := by
  obtain ⟨key, text, hk, hl⟩ := mem_databases.1 he
  rcases documentAt?_save h hk with rfl | hk
  · exact .inl ((Document.load_text_eq_ok_iff hd).1 hl)
  · exact .inr (mem_databases.2 ⟨key, text, hk, hl⟩)

theorem mem_databases_of_remove {name : String} {e : Database} (h : s.remove name = .ok s')
    (he : e ∈ s'.databases reader) : e ∈ s.databases reader := by
  obtain ⟨key, text, hk, hl⟩ := mem_databases.1 he
  exact mem_databases.2 ⟨key, text, documentAt?_remove h hk, hl⟩

theorem outside_save {d : Database} (hd : IsFileStem d.name) (h : s.save d = .ok s') :
    s'.outside = s.outside := by
  cases s with
  | memory docs =>
    cases h
    rfl
  | directory dir =>
    obtain ⟨dir', hd', rfl⟩ := map_eq_ok_iff.1 h
    cases Directory.save_eq_ok hd.slash_notMem_fileName hd'
    rfl

theorem outside_remove {name : String} (hn : IsFileStem name) (h : s.remove name = .ok s') :
    s'.outside = s.outside := by
  cases s with
  | memory docs =>
    cases h
    rfl
  | directory dir =>
    obtain ⟨dir', hd', rfl⟩ := map_eq_ok_iff.1 h
    cases Directory.remove_eq_ok hn.slash_notMem_fileName hd'
    rfl

end Store

variable {p : String → Prop} {o : List String × List (Place × String)}

/-- All calls were for names of one kind, and so are the names in the documents. If these names are
file stems, nothing has changed outside. -/
structure Storage.Contained (p : String → Prop) (o : List String × List (Place × String))
    (st : Storage) : Prop where
  calls : ∀ r ∈ st.calls, p r.call.name
  databases : ∀ d ∈ st.store.databases st.reader, p d.name
  outside : (∀ name, p name → IsFileStem name) → st.store.outside = o

namespace Storage.Contained

variable {st : Storage}

theorem settle (h : st.Contained p o) {call : StorageCall}
    {outcome : Except StorageError Store} (hp : p call.name)
    (ho : ∀ s, outcome = .ok s → (∀ d ∈ s.databases st.reader, p d.name) ∧
      (IsFileStem call.name → s.outside = st.store.outside)) :
    (st.settle call outcome).1.Contained p o := by
  have hcalls : ∀ refused, ∀ r ∈ st.calls ++ [⟨call, refused⟩], p r.call.name := by
    intro refused r hr
    rcases List.mem_append.1 hr with hr | hr
    · exact h.calls r hr
    · cases List.mem_singleton.1 hr
      exact hp
  cases outcome with
  | error e => exact ⟨hcalls true, h.databases, h.outside⟩
  | ok s =>
    obtain ⟨hd, hs⟩ := ho s rfl
    exact ⟨hcalls false, hd, fun hf => (hs (hf _ hp)).trans (h.outside hf)⟩

theorem save (h : st.Contained p o) {d : Database} (hd : d.WellFormed) (hp : p d.name) :
    (st.save d).1.Contained p o := by
  refine h.settle hp fun s hs => ?_
  split at hs
  · cases hs
  · refine ⟨fun e he => ?_, fun hn => Store.outside_save hn hs⟩
    rcases Store.mem_databases_of_save hd hs he with he | he
    · rwa [he.name]
    · exact h.databases e he

theorem remove (h : st.Contained p o) {name : String} (hp : p name) :
    (st.remove name).1.Contained p o := by
  refine h.settle hp fun s hs => ?_
  split at hs
  · cases hs
  · exact ⟨fun e he => h.databases e (Store.mem_databases_of_remove hs he),
      fun hn => Store.outside_remove hn hs⟩

end Storage.Contained

/-! Runs -/

namespace Session

/-- The names of the databases in memory are of that kind too. -/
structure Contained (p : String → Prop) (o : List String × List (Place × String)) (s : Session) :
    Prop where
  wellFormed : s.catalog.WellFormed
  names : ∀ name d, s.catalog.databases.get? name = some d → p name
  storage : s.storage.Contained p o

theorem contained_open {storage : Storage} (h : storage.Contained p o) {s : Session}
    (ho : Session.open storage = .ok s) : s.Contained p o := by
  refine ⟨wellFormed_open ho, fun name d hd => ?_, ?_⟩
  · obtain ⟨-, rfl⟩ := open_eq_ok ho
    rw [Catalog.get?_ofDatabases] at hd
    have hn : d.name = name := by simpa using List.find?_some hd
    rw [← hn]
    exact h.databases d (List.mem_of_find?_eq_some hd)
  · obtain ⟨-, rfl⟩ := open_eq_ok ho
    exact h

/-- The names in memory come from statements and from documents. -/
theorem invariant_contained (hp : ∀ name, IsFileStem name → p name) :
    Invariant fun dbs st => (∀ name d, dbs.get? name = some d → p name) ∧ st.Contained p o where
  setFaults h _ := ⟨h.1, h.2.calls, h.2.databases, h.2.outside⟩
  save := by
    intro dbs st d h hd hn
    have hpd : p d.name := by
      rcases hn with hf | ⟨e, he⟩
      · exact hp _ (isFileStem_iff.2 ⟨hd.name.1, hf⟩)
      · exact h.1 _ e he
    refine ⟨fun name e he => ?_, h.2.save hd hpd⟩
    rw [NameMap.get?_insert] at he
    split at he
    · rename_i hname
      rw [hname]
      exact hpd
    · exact h.1 name e he
  remove := by
    intro dbs st name h hd
    obtain ⟨d, hd⟩ := hd
    refine ⟨fun k e hk => ?_, h.2.remove (h.1 name d hd)⟩
    rw [NameMap.get?_erase] at hk
    split at hk
    · cases hk
    · exact h.1 k e hk

namespace Contained

variable {s : Session}

theorem setFaults (h : s.Contained p o) (faults : Faults) : (s.setFaults faults).Contained p o :=
  ⟨h.wellFormed, h.names, h.storage.calls, h.storage.databases, h.storage.outside⟩

theorem execute (hp : ∀ name, IsFileStem name → p name) (h : s.Contained p o) (text : String) :
    (s.execute text).1.Contained p o := by
  have hr := (invariant_contained hp).execute h.wellFormed ⟨h.names, h.storage⟩ text
  exact ⟨wellFormed_execute h.wellFormed text, hr.1, hr.2⟩

theorem flush (hp : ∀ name, IsFileStem name → p name) (h : s.Contained p o) :
    s.flush.1.Contained p o := by
  have hr := (invariant_contained hp).flush h.wellFormed ⟨h.names, h.storage⟩
  exact ⟨h.wellFormed, h.names, hr.2⟩

end Contained

theorem calls_foldl_flushOne (ds : List Database) (r : Storage × Except Error Unit) :
    (ds.foldl flushOne r).1.calls.map CallRecord.call =
      r.1.calls.map CallRecord.call ++ ds.map fun d => .save d.name := by
  induction ds generalizing r with
  | nil => simp
  | cons d ds ih =>
    rw [List.foldl_cons, ih, flushOne_fst, Storage.save, Storage.calls_settle, List.append_assoc]
    rfl

/-- Storing everything is one call for each database. -/
theorem calls_flush (s : Session) : s.flush.1.storage.calls.map CallRecord.call =
    s.storage.calls.map CallRecord.call ++
      s.catalog.databases.values.map fun d => .save d.name :=
  calls_foldl_flushOne _ _

end Session

namespace Connection

theorem invariant_contained (hp : ∀ name, IsFileStem name → p name) :
    Invariant (Session.Contained p o) (Storage.Contained p o) where
  setFaults := Session.Contained.setFaults
  execute := Session.Contained.execute hp
  flush := Session.Contained.flush hp
  storage h := h.storage
  storageFaults h _ := ⟨h.calls, h.databases, h.outside⟩
  «open» h ho := Session.contained_open h ho

/-- The names that a run can bring to the storage. -/
def Known (store : Store) (reader : NumeralReader) (name : String) : Prop :=
  IsFileStem name ∨ ∃ d ∈ store.databases reader, d.name = name

theorem contained_run (store : Store) (reader : NumeralReader) (steps : List (Faults × Action)) :
    ((closed { store := store, reader := reader }).run steps).storage.Contained
      (Known store reader) store.outside := by
  have h : Storage.Contained (Known store reader) store.outside
      { store := store, reader := reader } :=
    ⟨by simp, fun d hd => .inr ⟨d, hd, rfl⟩, fun _ => rfl⟩
  have hi := invariant_contained (p := Known store reader) (o := store.outside) fun _ => .inl
  exact hi.storage_satisfies (hi.run (c := .closed { store := store, reader := reader }) h steps)

theorem isFileStem_of_known {store : Store} {reader : NumeralReader}
    (hs : ∀ d ∈ store.databases reader, IsFileStem d.name) {name : String}
    (h : Known store reader name) : IsFileStem name := by
  rcases h with h | ⟨d, hd, rfl⟩
  · exact h
  · exact hs d hd

theorem run_reopen_shutdown (store : Store) (reader : NumeralReader) :
    (closed { store := store, reader := reader }).run [({}, .reopen), ({}, .shutdown)] =
      .closed (Session.flush ⟨.ofDatabases (store.databases reader),
        { store := store, reader := reader }⟩).1.storage := rfl

/-- A session that is opened and closed again saves every document that can be read. -/
theorem save_mem_calls {store : Store} {reader : NumeralReader} {d : Database}
    (hd : d ∈ store.databases reader) : .save d.name ∈ ((closed { store := store, reader := reader }).run
      [({}, .reopen), ({}, .shutdown)]).storage.calls.map CallRecord.call := by
  rw [run_reopen_shutdown, storage, Session.calls_flush, List.map_nil, List.nil_append]
  obtain ⟨e, he⟩ : ∃ e,
      (Catalog.ofDatabases (store.databases reader)).databases.get? d.name = some e := by
    rw [Catalog.get?_ofDatabases, ← Option.isSome_iff_exists, List.find?_isSome]
    exact ⟨d, hd, beq_self_eq_true _⟩
  have hn := ((Catalog.wellFormed_ofDatabases Store.wellFormed_databases).databases _ e he).1
  rw [← hn]
  exact List.mem_map_of_mem (List.mem_map_of_mem (NameMap.get?_eq_some_iff_mem.1 he))

/-- Whatever documents there are at first, a run saves and removes under file stems and under the
names in these documents. It keeps to file stems in all cases just when all these names are file
stems, and then every call is for a file of the directory itself and nothing else changes. -/
theorem contained_of_run (store : Store) (reader : NumeralReader) :
    (∀ steps, ∀ r ∈ ((closed { store := store, reader := reader }).run steps).storage.calls,
      IsFileStem r.call.name ∨ ∃ d ∈ store.databases reader, d.name = r.call.name) ∧
    ((∀ steps, ∀ r ∈ ((closed { store := store, reader := reader }).run steps).storage.calls,
      IsFileStem r.call.name) ↔ ∀ d ∈ store.databases reader, IsFileStem d.name) ∧
    ((∀ d ∈ store.databases reader, IsFileStem d.name) →
      ∀ steps, ((closed { store := store, reader := reader }).run steps).storage.store.outside =
          store.outside ∧
        ∀ r ∈ ((closed { store := store, reader := reader }).run steps).storage.calls,
          ∀ (dir : Directory) place file, dir.locate r.call.name = .ok (place, file) →
            place = .inside ∧ file = Directory.fileName r.call.name) := by
  refine ⟨fun steps => (contained_run store reader steps).calls,
    ⟨fun h d hd => ?_, fun hs steps r hr => ?_⟩,
    fun hs steps => ⟨?_, fun r hr dir place file hl => ?_⟩⟩
  · obtain ⟨r, hr, he⟩ := List.mem_map.1 (save_mem_calls hd)
    have hf := h _ r hr
    rwa [he] at hf
  · exact isFileStem_of_known hs ((contained_run store reader steps).calls r hr)
  · exact (contained_run store reader steps).outside fun _ => isFileStem_of_known hs
  · exact (isFileStem_of_known hs ((contained_run store reader steps).calls r hr)).locate hl

/-- A directory with one document, that of the given database. -/
def prefilled (d : Database) : Store :=
  .directory (.holding ["data"] (.ofList [("a.json", .file (.text (Document.text d)))]))

theorem databases_prefilled {reader : NumeralReader} {name : String} (hn : IsProper name) :
    (prefilled ⟨name, []⟩).databases reader = [⟨name, []⟩] := by
  have hd := (Database.make_eq_ok (Database.make_of_isProper hn)).1
  have ht : (prefilled ⟨name, []⟩).documents = [Document.text ⟨name, []⟩] := by
    have hj : Directory.isDocumentName "a.json" = true := by decide
    change List.filterMap Directory.document? [_] = _
    simp [Directory.document?, hj]
  have hb : Database.IsReadBack reader ⟨name, []⟩ := List.forall_mem_nil _
  rw [Store.databases, ht, List.filterMap_cons, (Document.load_text_eq_self_iff hd).2 hb]
  rfl

theorem contained_of_prefilled :
    (prefilled ⟨"a", []⟩).databases .exact = [⟨"a", []⟩] ∧ IsFileStem "a" ∧
      ∀ steps, ((closed { store := prefilled ⟨"a", []⟩ }).run steps).storage.store.outside =
        (["data"], []) := by
  have hd : (prefilled ⟨"a", []⟩).databases .exact = [⟨"a", []⟩] :=
    databases_prefilled ⟨by decide, by decide⟩
  have ha : IsFileStem "a" := isFileStem_iff.2 ⟨by decide, by decide⟩
  refine ⟨hd, ha, fun steps => ((contained_of_run _ .exact).2.2 ?_ steps).1⟩
  rwa [hd, List.forall_mem_singleton]

/-- A document whose name is a path is saved where the path leads. -/
theorem saved_outside :
    (closed { store := prefilled ⟨"../evil", []⟩ }).run [({}, .reopen), ({}, .shutdown)] =
      .closed
        { store := .directory ⟨["data"],
            .ofList [("a.json", .file (.text (Document.text ⟨"../evil", []⟩)))],
            [(.above [], "evil.json")]⟩
          calls := [⟨.save "../evil", false⟩] } ∧
      ¬IsFileStem "../evil" := by
  constructor
  · rw [run_reopen_shutdown, databases_prefilled ⟨by decide, by decide⟩]
    rfl
  · intro h
    exact h.noSlash (by decide)

end Connection

end TableStore

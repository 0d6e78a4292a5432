import TableStore.Proofs.Bytes
import TableStore.Proofs.Loading
import TableStore.Proofs.StoreContents

/-!
# Opening a storage

Whatever a store holds, a session opens on it. Under each name it has the first database of that
name in the order of the keys, so what no database is read from makes no difference, wherever it is.
-/
namespace TableStore

namespace NameMap

variable {α : Type} {m m' : NameMap α}

/-- The first of the values is that of the least key. -/
theorem head?_values_eq_some_iff {x : α} : m.values.head? = some x ↔
    ∃ key, m.get? key = some x ∧ ∀ k y, m.get? k = some y → key = k ∨ key < k := by
  obtain ⟨es, hs⟩ := m
  cases es with
  | nil => simp [values, get?]
  | cons e es =>
    obtain ⟨key, y⟩ := e
    have hfirst : ∀ k z, get? ⟨(key, y) :: es, hs⟩ k = some z → key = k ∨ key < k := by
      intro k z hz
      rcases List.mem_cons.1 (get?_eq_some_iff_mem.1 hz) with he | hm
      · exact .inl (congrArg Prod.fst he).symm
      · exact .inr ((List.pairwise_cons.1 hs).1 k (List.mem_map_of_mem hm))
    have hkey : get? ⟨(key, y) :: es, hs⟩ key = some y :=
      get?_eq_some_iff_mem.2 List.mem_cons_self
    constructor
    · intro h
      cases h
      exact ⟨key, hkey, hfirst⟩
    · rintro ⟨k, hk, hleast⟩
      have he : k = key := by
        rcases hleast key y hkey with he | hlt
        · exact he
        · rcases hfirst k x hk with he | hgt
          · exact he.symm
          · exact absurd (String.lt_trans hlt hgt) (String.lt_irrefl k)
      subst he
      exact hkey.symm.trans hk

/-- Two maps have the same under every key, except for entries of a kind, which either may have. -/
def AgreeBut (p : String → α → Prop) (m m' : NameMap α) : Prop :=
  ∀ key, m.get? key = m'.get? key ∨
    (∀ x, m.get? key = some x → p key x) ∧ ∀ x, m'.get? key = some x → p key x

namespace AgreeBut

variable {p : String → α → Prop} {m'' : NameMap α} {key : String}

theorem trans (h : m.AgreeBut p m') (h' : m'.AgreeBut p m'') : m.AgreeBut p m'' := by
  intro k
  rcases h k with he | ⟨hp, hp'⟩
  · rw [he]
    exact h' k
  · rcases h' k with he | ⟨-, hp''⟩
    · exact .inr ⟨hp, he ▸ hp'⟩
    · exact .inr ⟨hp, hp''⟩

/-- An entry of the kind is added, or put in the place of one. -/
theorem insert {x : α} (h : ∀ y, m.get? key = some y → p key y) (hx : p key x) :
    m.AgreeBut p (m.insert key x) := by
  intro k
  rw [get?_insert]
  split
  · rename_i hk
    subst hk
    exact .inr ⟨h, fun y hy => Option.some_inj.1 hy ▸ hx⟩
  · exact .inl rfl

/-- An entry of the kind is removed. -/
theorem erase (h : ∀ y, m.get? key = some y → p key y) : m.AgreeBut p (m.erase key) := by
  intro k
  rw [get?_erase]
  split
  · rename_i hk
    subst hk
    exact .inr ⟨h, fun y hy => by cases hy⟩
  · exact .inl rfl

end AgreeBut

end NameMap

/-! What no database is read from -/

/-- The text is not the document of any database. -/
def Document.Unloadable (reader : NumeralReader) (text : String) : Prop :=
  ∀ d, load text reader ≠ .ok d

/-- What a directory may have besides the files that databases are read from. -/
inductive Directory.Unread (reader : NumeralReader) (file : String) : FileEntry → Prop
  | folder : Unread reader file .folder
  | otherName (content : Content) (h : isDocumentName file = false) :
    Unread reader file (.file content)
  | binary (bytes : ByteArray) : Unread reader file (.file (.binary bytes))
  | unloadable {text : String} (h : Document.Unloadable reader text) :
    Unread reader file (.file (.text text))

theorem Directory.document?_eq_some_iff {file text : String} {entry : FileEntry} :
    document? (file, entry) = some text ↔
      isDocumentName file = true ∧ entry = .file (.text text) := by
  cases entry with
  | folder => simp [document?]
  | file content => cases content <;> simp [document?]

namespace Store

variable {reader : NumeralReader} {s s' : Store}

/-- Two stores differ in nothing that a database is read from: documents in memory in those that
are not loaded, directories in what they have besides the files that databases are read from, in
what is elsewhere and in where they are. -/
def AgreeButUnread (reader : NumeralReader) : Store → Store → Prop
  | memory docs, memory docs' => docs.AgreeBut (fun _ => Document.Unloadable reader) docs'
  | directory dir, directory dir' => dir.files.AgreeBut (Directory.Unread reader) dir'.files
  | _, _ => False

theorem holds_directory {dir : Directory} {file : String} {d : Database} :
    (directory dir).Holds reader file d ↔ Directory.isDocumentName file = true ∧
      ∃ text, dir.files.get? file = some (.file (.text text)) ∧
        Document.load text reader = .ok d := by
  constructor
  · rintro ⟨text, ht, hl⟩
    obtain ⟨entry, he, ht⟩ := Option.bind_eq_some_iff.1 ht
    obtain ⟨hd, rfl⟩ := Directory.document?_eq_some_iff.1 ht
    exact ⟨hd, text, he, hl⟩
  · rintro ⟨hd, text, he, hl⟩
    exact ⟨text, Option.bind_eq_some_iff.2 ⟨_, he, Directory.document?_eq_some_iff.2 ⟨hd, rfl⟩⟩, hl⟩

/-- So a database is read from an entry of a directory unless it is one of these. -/
theorem unread_iff {dir : Directory} {file : String} {entry : FileEntry}
    (h : dir.files.get? file = some entry) :
    Directory.Unread reader file entry ↔ ∀ d, ¬(directory dir).Holds reader file d := by
  simp only [holds_directory, h]
  constructor
  · rintro (_ | ⟨content, hn⟩ | bytes | hl) d ⟨hd, text, ht, hload⟩
    · cases ht
    · rw [hd] at hn
      cases hn
    · cases ht
    · cases ht
      exact hl d hload
  · intro hno
    cases entry with
    | folder => exact .folder
    | file content =>
      cases content with
      | binary bytes => exact .binary bytes
      | text text =>
        by_cases hd : Directory.isDocumentName file = true
        · exact .unloadable fun d hl => hno d ⟨hd, text, rfl, hl⟩
        · exact .otherName _ (Bool.not_eq_true _ ▸ hd)

theorem AgreeButUnread.holds_iff (h : AgreeButUnread reader s s') (key : String) (d : Database) :
    s.Holds reader key d ↔ s'.Holds reader key d := by
  cases s with
  | memory docs =>
    cases s' with
    | directory => cases h
    | memory docs' =>
      rcases h key with he | ⟨hu, hu'⟩
      · have hd : (memory docs).documentAt? key = (memory docs').documentAt? key := he
        unfold Holds
        rw [hd]
      · exact iff_of_false (fun ⟨t, ht, hl⟩ => hu t ht d hl) fun ⟨t, ht, hl⟩ => hu' t ht d hl
  | directory dir =>
    cases s' with
    | memory => cases h
    | directory dir' =>
      rcases h key with he | ⟨hu, hu'⟩
      · rw [holds_directory, holds_directory, he]
      · have hno : ∀ {dir : Directory}, (∀ e, dir.files.get? key = some e →
            Directory.Unread reader key e) → ¬(directory dir).Holds reader key d := fun hu hh => by
          obtain ⟨-, text, ht, -⟩ := holds_directory.1 hh
          exact (unread_iff ht).1 (hu _ ht) d hh
        exact iff_of_false (hno hu) (hno hu')

/-- The document under the key is the first, in the order of the bytes of the keys, from which a
database of the name is read, and this is the database. -/
structure ReadsFirst (s : Store) (reader : NumeralReader) (name key : String) (d : Database) :
    Prop where
  holds : s.Holds reader key d
  name_eq : d.name = name
  least : ∀ k e, s.Holds reader k e → e.name = name → key = k ∨ Text.bytes key < Text.bytes k

theorem find?_databases_eq_some_iff {name : String} {d : Database} :
    ((s.databases reader).find? fun d => d.name == name) = some d ↔
      ∃ key, s.ReadsFirst reader name key d := by
  rw [find?_databases_eq, NameMap.head?_values_eq_some_iff]
  refine exists_congr fun key => ?_
  rw [get?_named]
  simp only [get?_named, ← Text.bytes_lt_bytes_iff]
  constructor
  · rintro ⟨⟨hh, hn⟩, hleast⟩
    exact ⟨hh, hn, fun k e he hen => hleast k e ⟨he, hen⟩⟩
  · rintro ⟨hh, hn, hleast⟩
    exact ⟨⟨hh, hn⟩, fun k e he => hleast k e he.1 he.2⟩

theorem find?_databases_eq_none_iff {name : String} :
    ((s.databases reader).find? fun d => d.name == name) = none ↔
      ∀ key d, s.Holds reader key d → d.name ≠ name := by
  rw [List.find?_eq_none]
  constructor
  · intro h key d ⟨text, ht, hl⟩ hn
    exact h d (mem_databases.2 ⟨key, text, ht, hl⟩) (beq_iff_eq.2 hn)
  · intro h d hd hn
    obtain ⟨key, text, ht, hl⟩ := mem_databases.1 hd
    exact h key d ⟨text, ht, hl⟩ (beq_iff_eq.1 hn)

end Store

namespace Session

theorem open_of_load {storage : Storage} (h : storage.faults.load = none) :
    Session.open storage =
      .ok ⟨Catalog.ofDatabases (storage.store.databases storage.reader), storage⟩ := by
  unfold Session.open Storage.load
  rw [h]
  rfl

end Session

/-- What a catalog has under the names is all there is to it when it is loaded. -/
theorem Catalog.ofDatabases_congr {ds ds' : List Database}
    (h : ∀ name, (ds.find? fun d => d.name == name) = ds'.find? fun d => d.name == name) :
    ofDatabases ds = ofDatabases ds' := by
  have hd : (ofDatabases ds).databases = (ofDatabases ds').databases :=
    NameMap.ext_get? fun name => by rw [get?_ofDatabases, get?_ofDatabases, h]
  exact congrArg (Catalog.mk · none) hd

namespace Session

/-- Where the documents of a storage can be listed a session opens on it, with no database selected
and the storage as it was. Under a name the catalog has the first database of that name, by the bytes
of the keys, and nothing if there is none. A storage that is read in the same way and differs only in
what no database is read from opens to the same catalog. -/
theorem open_exact {storage : Storage} (h : storage.faults.load = none) :
    ∃ catalog, Session.open storage = .ok ⟨catalog, storage⟩ ∧
      catalog.selected = none ∧
      (∀ name d, catalog.databases.get? name = some d ↔
        ∃ key, storage.store.ReadsFirst storage.reader name key d) ∧
      (∀ name, catalog.databases.get? name = none ↔
        ∀ key d, storage.store.Holds storage.reader key d → d.name ≠ name) ∧
      ∀ storage', storage'.faults.load = none → storage'.reader = storage.reader →
        Store.AgreeButUnread storage.reader storage.store storage'.store →
          Session.open storage' = .ok ⟨catalog, storage'⟩ := by
  refine ⟨.ofDatabases (storage.store.databases storage.reader), open_of_load h, rfl,
    fun name d => ?_, fun name => ?_, fun storage' h' hr hs => ?_⟩
  · rw [Catalog.get?_ofDatabases]
    exact Store.find?_databases_eq_some_iff
  · rw [Catalog.get?_ofDatabases]
    exact Store.find?_databases_eq_none_iff
  · rw [open_of_load h', hr, Catalog.ofDatabases_congr fun name =>
      Store.find?_databases_congr fun key d _ => hs.holds_iff key d]

def namesake : Database := ⟨"x", [⟨"t", [⟨"c", .integer⟩], []⟩]⟩

theorem wellFormed_namesake : namesake.WellFormed := by
  refine ⟨by decide, by decide, fun t ht => ?_⟩
  cases List.mem_singleton.1 ht
  exact ⟨by decide, by decide, by decide, by decide, by simp⟩

/-- Two documents of one name after one that is none. -/
def orderly : NameMap FileEntry :=
  .ofList [("a.json", .file (.text "no document")), ("b.json", .file (.text "[\" x \"]")),
    ("c.json", .file (.text (Document.text namesake)))]

/-- The same two among a folder, a file that is no text and a file of another ending. -/
def cluttered : NameMap FileEntry :=
  (((orderly.insert "a.txt" (.file (.text "[\"y\"]"))).insert "ab.json" .folder).insert "aa.json"
    (.file (.binary ⟨#[255]⟩))).erase "a.json"

theorem unloadable_noDocument : Document.Unloadable .exact "no document" := by
  have he : (Document.load "no document").toOption = none := by decide +kernel
  intro d hl
  rw [hl] at he
  cases he

theorem agreeBut_cluttered : orderly.AgreeBut (Directory.Unread .exact) cluttered := by
  refine .trans (.insert (fun y hy => ?_) (.otherName _ (by decide)))
    (.trans (.insert (fun y hy => ?_) .folder)
      (.trans (.insert (fun y hy => ?_) (.binary _)) (.erase fun y hy => ?_)))
  · cases hy
  · cases hy
  · cases hy
  · cases hy
    exact .unloadable unloadable_noDocument

theorem open_exact_cluttered :
    ∃ catalog : Catalog,
      Session.open { store := .directory (.holding ["data"] orderly) } =
        .ok ⟨catalog, { store := .directory (.holding ["data"] orderly) }⟩ ∧
      Session.open { store := .directory (.holding ["data"] cluttered) } =
        .ok ⟨catalog, { store := .directory (.holding ["data"] cluttered) }⟩ ∧
      catalog.databases.get? "x" = some ⟨"x", []⟩ ∧ catalog.databases.get? "y" = none := by
  obtain ⟨catalog, ho, -, hsome, hnone, hagree⟩ :=
    @open_exact { store := .directory (.holding ["data"] orderly) } rfl
  have hb : Document.load "[\" x \"]" = .ok ⟨"x", []⟩ := by decide +kernel
  have hc : Document.load (Document.text namesake) = .ok namesake :=
    Document.load_text NumeralReader.exact_readsBack wellFormed_namesake
  have hkeys : ∀ {key d}, (Store.directory (.holding ["data"] orderly)).Holds .exact key d →
      d.name = "x" ∧ (key = "b.json" ∨ key = "c.json") := by
    intro key d hh
    obtain ⟨-, text, ht, hl⟩ := Store.holds_directory.1 hh
    have hm := NameMap.get?_eq_some_iff_mem.1 ht
    have he : orderly.entries = [("a.json", .file (.text "no document")),
        ("b.json", .file (.text "[\" x \"]")),
        ("c.json", .file (.text (Document.text namesake)))] := rfl
    rw [Directory.holding, he] at hm
    simp only [List.mem_cons, Prod.mk.injEq, FileEntry.file.injEq, Content.text.injEq,
      List.not_mem_nil, or_false] at hm
    rcases hm with ⟨rfl, rfl⟩ | ⟨rfl, rfl⟩ | ⟨rfl, rfl⟩
    · exact absurd hl (unloadable_noDocument d)
    · rw [hb] at hl
      cases hl
      exact ⟨rfl, .inl rfl⟩
    · rw [hc] at hl
      cases hl
      exact ⟨rfl, .inr rfl⟩
  refine ⟨catalog, ho, hagree _ rfl rfl agreeBut_cluttered, (hsome _ _).2 ⟨"b.json", ?_, rfl, ?_⟩,
    (hnone _).2 fun key d hh hn => ?_⟩
  · exact Store.holds_directory.2 ⟨by decide, _, rfl, hb⟩
  · intro key e hh _
    rcases (hkeys hh).2 with rfl | rfl
    · exact .inl rfl
    · exact .inr (Text.bytes_lt_bytes_iff.2 (by decide))
  · rw [(hkeys hh).1] at hn
    exact absurd hn (by decide)

end Session

end TableStore

import TableStore.Proofs.DocumentRoundTrip
import TableStore.Store

/-!
# Contents of a store

A store as a function from names to databases. A call that goes through changes it at one name.
-/
namespace TableStore

namespace Directory

theorem toList_fileName (name : String) : (fileName name).toList = name.toList ++ ".json".toList :=
  String.toList_append

theorem fileName_injective {m n : String} (h : fileName m = fileName n) : m = n := by
  have hl := congrArg String.toList h
  rw [toList_fileName, toList_fileName] at hl
  exact String.toList_inj.1 (List.append_cancel_right hl)

theorem isDocumentName_fileName {name : String} (h : name ≠ "") :
    isDocumentName (fileName name) = true := by
  have hl : name.toList ≠ [] := by simpa using h
  unfold isDocumentName
  rw [toList_fileName, List.reverse_append]
  simp [hl]

theorem ofText_fileName {name : String} (h : '/' ∉ (fileName name).toList) :
    Path.ofText (fileName name) = ⟨false, [fileName name]⟩ := by
  have hne : fileName name ≠ "" := by
    intro he
    have hl := congrArg String.toList he
    rw [toList_fileName] at hl
    simp at hl
  unfold Path.ofText
  rw [List.splitOn_eq_singleton h]
  simp [Path.ofNames, hne]

/-- A name without slashes is that of a file in the directory itself, if it is any file's. -/
theorem locate_cases (dir : Directory) {name : String} (h : '/' ∉ (fileName name).toList) :
    dir.locate name = .ok (.inside, fileName name) ∨
    ∃ e, e ≠ .noSuchFile ∧ dir.locate name = .error e := by
  unfold locate
  rw [ofText_fileName h]
  by_cases hz : name.toList.contains '\x00' = true
  · refine .inr ⟨.zeroCharacter, by simp, ?_⟩
    rw [if_pos hz]
    rfl
  · rw [if_neg hz]
    by_cases hd : longestPath < dir.pathSize (fileName name)
    · refine .inr ⟨.nameTooLong, by simp, ?_⟩
      rw [if_pos hd]
      rfl
    · rw [if_neg hd]
      by_cases hl : longestName < (fileName name).utf8ByteSize
      · exact .inr ⟨.nameTooLong, by simp, if_pos hl⟩
      · exact .inl (if_neg hl)

theorem save_eq_ok {dir dir' : Directory} {name document : String}
    (hk : '/' ∉ (fileName name).toList) (h : dir.save name document = .ok dir') :
    dir' = dir.put .inside (fileName name) document := by
  unfold save at h
  rcases locate_cases dir hk with hl | ⟨e, -, hl⟩
  · rw [hl] at h
    dsimp only [bind, Except.bind] at h
    split at h
    · cases h
    · cases h
      rfl
  · rw [hl] at h
    cases h

theorem remove_eq_ok {dir dir' : Directory} {name : String}
    (hk : '/' ∉ (fileName name).toList) (h : dir.remove name = .ok dir') :
    dir' = dir.take .inside (fileName name) := by
  unfold remove at h
  rcases locate_cases dir hk with hl | ⟨e, he, hl⟩
  · rw [hl] at h
    dsimp only at h
    split at h
    · cases h
    · cases h
      rfl
  · rw [hl] at h
    split at h
    · rename_i hn
      cases hn
      exact absurd rfl he
    · cases h
    · rename_i hn
      cases hn

theorem document?_of_not {file : String} (h : isDocumentName file = false) (e : FileEntry) :
    document? (file, e) = none := by
  rcases e with ⟨_ | _⟩ | _ <;> simp [document?, h]

end Directory

namespace Store

/-- The key under which a database is kept. -/
def keyOf : Store → String → String
  | memory _, name => name
  | directory _, name => Directory.fileName name

/-- A key of a directory is a file name, which has no slash in it. -/
def IsKey : Store → String → Prop
  | memory _, _ => True
  | directory _, key => '/' ∉ key.toList

/-- The text that is taken as a document under a key. -/
def documentAt? : Store → String → Option String
  | memory docs, key => docs.get? key
  | directory dir, key => (dir.files.get? key).bind fun e => Directory.document? (key, e)

/-- A document that is put in the directory is taken as one if its file has the name of one. -/
theorem documentAt?_put (dir : Directory) (p : Place) (file document key : String) :
    (directory (dir.put p file document)).documentAt? key =
      if (p = .inside ∧ file = key) ∧ Directory.isDocumentName key = true then some document
      else (directory dir).documentAt? key := by
  cases p with
  | inside =>
    rw [documentAt?, Directory.put, NameMap.get?_insert]
    by_cases hk : key = file
    · subst hk
      rw [if_pos rfl]
      by_cases hn : Directory.isDocumentName key = true
      · rw [if_pos ⟨⟨rfl, rfl⟩, hn⟩]
        exact if_pos hn
      · have hnone := Directory.document?_of_not (eq_false_of_ne_true hn)
        rw [if_neg fun h => hn h.2, Option.bind_some, hnone, documentAt?]
        cases dir.files.get? key with
        | none => rfl
        | some e => exact (hnone e).symm
    · rw [if_neg hk, if_neg fun h => hk h.1.2.symm]
      rfl
  | below folder =>
    rw [if_neg fun h => Place.noConfusion h.1.1]
    rfl
  | above names =>
    rw [if_neg fun h => Place.noConfusion h.1.1]
    rfl

theorem documentAt?_take (dir : Directory) (p : Place) (file key : String) :
    (directory (dir.take p file)).documentAt? key =
      if p = .inside ∧ file = key then none else (directory dir).documentAt? key := by
  cases p with
  | inside =>
    rw [documentAt?, Directory.take, NameMap.get?_erase]
    by_cases hk : key = file
    · rw [if_pos hk, if_pos ⟨rfl, hk.symm⟩]
      rfl
    · rw [if_neg hk, if_neg fun h => hk h.2.symm]
      rfl
  | below folder =>
    rw [if_neg fun h => Place.noConfusion h.1]
    rfl
  | above names =>
    rw [if_neg fun h => Place.noConfusion h.1]
    rfl

/-- The database that is read under a name. -/
def database? (s : Store) (reader : NumeralReader) (name : String) : Option Database :=
  (s.documentAt? (s.keyOf name)).bind fun text => (Document.load text reader).toOption

/-- Every document that can be read is kept under the name of its own database. -/
def FiledByName (s : Store) (reader : NumeralReader) : Prop :=
  ∀ key text d, s.documentAt? key = some text → Document.load text reader = .ok d →
    key = s.keyOf d.name ∧ s.IsKey key

variable {reader : NumeralReader}

theorem keyOf_injective (s : Store) {m n : String} (h : s.keyOf m = s.keyOf n) : m = n := by
  cases s with
  | memory docs => exact h
  | directory dir => exact Directory.fileName_injective h

/-- The texts that are taken as documents, by their keys. -/
def filed : Store → NameMap String
  | memory docs => docs
  | directory dir => dir.files.filterMap fun key e => Directory.document? (key, e)

theorem get?_filed (s : Store) (key : String) : s.filed.get? key = s.documentAt? key := by
  cases s with
  | memory docs => rfl
  | directory dir => exact NameMap.get?_filterMap dir.files _ key

theorem values_filed (s : Store) : s.filed.values = s.documents := by
  cases s with
  | memory docs => rfl
  | directory dir => exact NameMap.values_filterMap dir.files _

theorem mem_documents {s : Store} {text : String} :
    text ∈ s.documents ↔ ∃ key, s.documentAt? key = some text := by
  rw [← values_filed, NameMap.values, List.mem_map]
  constructor
  · rintro ⟨⟨key, _⟩, hm, rfl⟩
    exact ⟨key, (get?_filed s key).symm.trans (NameMap.get?_eq_some_iff_mem.2 hm)⟩
  · rintro ⟨key, hk⟩
    exact ⟨(key, text), NameMap.get?_eq_some_iff_mem.1 ((get?_filed s key).trans hk), rfl⟩

theorem mem_databases {s : Store} {d : Database} :
    d ∈ s.databases reader ↔
      ∃ key text, s.documentAt? key = some text ∧ Document.load text reader = .ok d := by
  unfold databases
  rw [List.mem_filterMap]
  constructor
  · rintro ⟨text, ht, hl⟩
    obtain ⟨key, hk⟩ := mem_documents.1 ht
    exact ⟨key, text, hk, toOption_eq_some_iff.1 hl⟩
  · rintro ⟨key, text, hk, hl⟩
    exact ⟨text, mem_documents.2 ⟨key, hk⟩, toOption_eq_some_iff.2 hl⟩

theorem database?_eq_some_iff {s : Store} {name : String} {d : Database} :
    s.database? reader name = some d ↔
      ∃ text, s.documentAt? (s.keyOf name) = some text ∧ Document.load text reader = .ok d := by
  unfold database?
  rw [Option.bind_eq_some_iff]
  exact exists_congr fun text => and_congr_right fun _ => toOption_eq_some_iff

/-- With every document under its own name, the databases that are read are those under their
names. -/
theorem FiledByName.mem_databases_iff {s : Store} (hs : s.FiledByName reader) {name : String}
    {d : Database} : d ∈ s.databases reader ∧ d.name = name ↔ s.database? reader name = some d := by
  rw [mem_databases, database?_eq_some_iff]
  constructor
  · rintro ⟨⟨key, text, hk, hl⟩, rfl⟩
    rw [← (hs key text d hk hl).1]
    exact ⟨text, hk, hl⟩
  · rintro ⟨text, hk, hl⟩
    exact ⟨⟨_, text, hk, hl⟩, (s.keyOf_injective (hs _ text d hk hl).1).symm⟩

theorem find?_databases_of_iff {s : Store} {name : String} {found : Option Database}
    (h : ∀ d, d ∈ s.databases reader ∧ d.name = name ↔ found = some d) :
    ((s.databases reader).find? fun d => d.name == name) = found := by
  cases hf : (s.databases reader).find? fun d => d.name == name with
  | some d =>
    have hn : d.name = name := by simpa using List.find?_some hf
    exact ((h d).1 ⟨List.mem_of_find?_eq_some hf, hn⟩).symm
  | none =>
    cases found with
    | none => rfl
    | some d =>
      obtain ⟨hm, hn⟩ := (h d).2 rfl
      have := List.find?_eq_none.1 hf d hm
      simp [hn] at this

/-- So none of them is passed over for another of its name. -/
theorem FiledByName.find?_databases {s : Store} (hs : s.FiledByName reader) (name : String) :
    ((s.databases reader).find? fun d => d.name == name) = s.database? reader name :=
  find?_databases_of_iff fun _ => hs.mem_databases_iff

/-- The document under a key is read as the database. -/
def Holds (s : Store) (reader : NumeralReader) (key : String) (d : Database) : Prop :=
  ∃ text, s.documentAt? key = some text ∧ Document.load text reader = .ok d

/-- The databases of a name that can be read, by their keys. -/
def named (s : Store) (reader : NumeralReader) (name : String) : NameMap Database :=
  s.filed.filterMap fun _ text =>
    (Document.load text reader).toOption.filter fun d => d.name == name

theorem get?_named {s : Store} {name key : String} {d : Database} :
    (s.named reader name).get? key = some d ↔ s.Holds reader key d ∧ d.name = name := by
  rw [named, NameMap.get?_filterMap, get?_filed]
  simp only [Holds, Option.bind_eq_some_iff, Option.filter_eq_some_iff, toOption_eq_some_iff,
    beq_iff_eq]
  constructor
  · rintro ⟨text, hk, hl, hn⟩
    exact ⟨⟨text, hk, hl⟩, hn⟩
  · rintro ⟨⟨text, hk, hl⟩, hn⟩
    exact ⟨text, hk, hl, hn⟩

theorem find?_databases_eq (s : Store) (name : String) :
    ((s.databases reader).find? fun d => d.name == name) = (s.named reader name).values.head? := by
  rw [← List.head?_filter, databases, List.filter_filterMap, ← values_filed, NameMap.values,
    List.filterMap_map, named, NameMap.values_filterMap]
  rfl

/-- Which of the databases of one name is read first depends on the documents of this name alone,
as keys come in one order. -/
theorem find?_databases_congr {s s' : Store} {name : String}
    (h : ∀ key d, d.name = name → (s.Holds reader key d ↔ s'.Holds reader key d)) :
    ((s.databases reader).find? fun d => d.name == name) =
      (s'.databases reader).find? fun d => d.name == name := by
  have hn : s.named reader name = s'.named reader name := by
    refine NameMap.ext_get? fun key => Option.ext fun d => ?_
    rw [get?_named, get?_named]
    exact and_congr_left (h key d)
  rw [find?_databases_eq, find?_databases_eq, hn]

/-- One store differs from another only in the text that is kept under one name. -/
structure Changes (s s' : Store) (name : String) (text : Option String) : Prop where
  keyOf : s'.keyOf = s.keyOf
  isKey : s'.IsKey = s.IsKey
  documentAt? : ∀ key,
    s'.documentAt? key = if key = s.keyOf name then text else s.documentAt? key

theorem changes_save {s s' : Store} {d : Database} (hk : s.IsKey (s.keyOf d.name))
    (hn : d.name ≠ "") (h : s.save d = .ok s') : s.Changes s' d.name (some (Document.text d)) := by
  cases s with
  | memory docs =>
    cases h
    exact ⟨rfl, rfl, fun key => NameMap.get?_insert docs d.name key _⟩
  | directory dir =>
    obtain ⟨dir', hd, rfl⟩ := map_eq_ok_iff.1 h
    cases Directory.save_eq_ok hk hd
    refine ⟨rfl, rfl, fun key => (documentAt?_put dir _ _ _ key).trans (if_congr ?_ rfl rfl)⟩
    constructor
    · rintro ⟨⟨-, he⟩, -⟩
      exact he.symm
    · rintro rfl
      exact ⟨⟨rfl, rfl⟩, Directory.isDocumentName_fileName hn⟩

theorem changes_remove {s s' : Store} {name : String} (hk : s.IsKey (s.keyOf name))
    (h : s.remove name = .ok s') : s.Changes s' name none := by
  cases s with
  | memory docs =>
    cases h
    exact ⟨rfl, rfl, fun key => NameMap.get?_erase docs name key⟩
  | directory dir =>
    obtain ⟨dir', hd, rfl⟩ := map_eq_ok_iff.1 h
    cases Directory.remove_eq_ok hk hd
    refine ⟨rfl, rfl, fun key => (documentAt?_take dir _ _ key).trans (if_congr ?_ rfl rfl)⟩
    exact (and_iff_right rfl).trans eq_comm

theorem Changes.database? {s s' : Store} {name : String} {text : Option String}
    (h : s.Changes s' name text) (n : String) :
    s'.database? reader n =
      if n = name then text.bind fun t => (Document.load t reader).toOption
      else s.database? reader n := by
  unfold Store.database?
  rw [h.documentAt?, h.keyOf]
  by_cases hn : n = name
  · rw [hn, if_pos rfl, if_pos rfl]
  · rw [if_neg hn, if_neg fun he => hn (s.keyOf_injective he)]

/-- Documents stay under their names when the new one is under its own. -/
theorem FiledByName.changes {s s' : Store} (hs : s.FiledByName reader) {name : String}
    {text : Option String} (h : s.Changes s' name text)
    (hd : ∀ d, s'.database? reader name = some d → d.name = name ∧ s.IsKey (s.keyOf name)) :
    s'.FiledByName reader := by
  intro key t d hk hl
  rw [h.keyOf, h.isKey]
  by_cases hn : key = s.keyOf name
  · rw [← h.keyOf] at hn
    subst hn
    obtain ⟨hname, hkey⟩ := hd d (database?_eq_some_iff.2 ⟨t, hk, hl⟩)
    rw [h.keyOf, hname]
    exact ⟨rfl, hkey⟩
  · rw [h.documentAt?, if_neg hn] at hk
    exact hs key t d hk hl

end Store

end TableStore

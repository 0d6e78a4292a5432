import TableStore.Proofs.Invariant
import TableStore.Proofs.StoreContents

/-!
# Durability

What the storage has under a name is what the catalog has, whenever the last call for the name went
through. A refused call breaks this at its own name, and the next one that goes through mends it.
-/
namespace TableStore

/-- The last call for a name was refused. -/
def lastRefused (calls : List CallRecord) (name : String) : Bool :=
  (calls.reverse.find? fun r => r.call.name == name).any CallRecord.refused

theorem lastRefused_append (calls : List CallRecord) (r : CallRecord) (name : String) :
    lastRefused (calls ++ [r]) name =
      if r.call.name = name then r.refused else lastRefused calls name := by
  unfold lastRefused
  rw [List.reverse_append, List.reverse_singleton, List.singleton_append, List.find?_cons]
  by_cases hn : r.call.name = name
  · simp [hn]
  · rw [beq_eq_false_iff_ne.2 hn, if_neg hn]

/-- A storage that keeps up with a catalog, but for the names whose last call was refused. -/
structure Storage.Keeps (st : Storage) (c : Catalog) : Prop where
  readsBack : st.reader.ReadsBack
  filed : st.store.FiledByName st.reader
  isKey : ∀ name d, c.databases.get? name = some d → st.store.IsKey (st.store.keyOf name)
  agrees : ∀ name, lastRefused st.calls name = false →
    st.store.database? st.reader name = c.databases.get? name

theorem Store.isKey_keyOf_of_isFitName {name : String} (h : Catalog.isFitName name = true)
    (s : Store) : s.IsKey (s.keyOf name) := by
  cases s with
  | memory docs => trivial
  | directory dir =>
    intro hm
    rw [keyOf, Directory.toList_fileName, List.mem_append] at hm
    simp only [Catalog.isFitName, Bool.and_eq_true, Bool.not_eq_true', List.contains_eq_mem,
      decide_eq_false_iff_not] at h
    rcases hm with hm | hm
    · exact h.1.2 hm
    · simp at hm

namespace Storage.Keeps

variable {st : Storage} {c c' : Catalog}

/-- The catalog changes at one name, and then the call for this name is made. -/
theorem settle (h : st.Keeps c) {call : StorageCall} {outcome : Except StorageError Store}
    (hw : ∀ d, c'.databases.get? call.name = some d → d.name = call.name)
    (hk : ∀ name d, c'.databases.get? name = some d → st.store.IsKey (st.store.keyOf name))
    (hn : ∀ name, name ≠ call.name → c'.databases.get? name = c.databases.get? name)
    (ho : ∀ s, outcome = .ok s → ∃ text, st.store.Changes s call.name text ∧
      (text.bind fun t => (Document.load t st.reader).toOption) = c'.databases.get? call.name) :
    (st.settle call outcome).1.Keeps c' := by
  cases outcome with
  | error e =>
    refine ⟨h.readsBack, h.filed, hk, fun name hl => ?_⟩
    rw [Storage.settle, lastRefused_append] at hl
    split at hl
    · cases hl
    · rename_i hne
      rw [hn name (Ne.symm hne)]
      exact h.agrees name hl
  | ok s =>
    obtain ⟨text, hs, ht⟩ := ho s rfl
    have hd : ∀ name, s.database? st.reader name =
        if name = call.name then c'.databases.get? name
        else st.store.database? st.reader name := by
      intro name
      rw [hs.database?, ht]
      split
      · rename_i he
        rw [he]
      · rfl
    have hf : s.FiledByName st.reader := by
      refine h.filed.changes hs fun d hd' => ?_
      rw [hd, if_pos rfl] at hd'
      exact ⟨hw d hd', hk _ d hd'⟩
    refine ⟨h.readsBack, hf, ?_, fun name hl => ?_⟩
    · intro name d hd'
      rw [Storage.settle, hs.keyOf, hs.isKey]
      exact hk name d hd'
    · rw [Storage.settle, lastRefused_append] at hl
      rw [Storage.settle, hd]
      split
      · rfl
      · rename_i hne
        rw [if_neg (Ne.symm hne)] at hl
        rw [hn name hne]
        exact h.agrees name hl

theorem save (h : st.Keeps c) {d : Database} (hd : d.WellFormed)
    (hn : Catalog.isFitName d.name = true ∨ ∃ e, c.databases.get? d.name = some e) :
    (st.save d).1.Keeps (c.put d) := by
  have hg : (c.put d).databases.get? d.name = some d := NameMap.get?_insert_self ..
  have hk : st.store.IsKey (st.store.keyOf d.name) := by
    rcases hn with hf | ⟨e, he⟩
    · exact Store.isKey_keyOf_of_isFitName hf _
    · exact h.isKey _ e he
  refine h.settle (fun e he => ?_) (fun name e he => ?_)
    (fun name hne => NameMap.get?_insert_of_ne _ _ hne) fun s hs => ?_
  · cases hg.symm.trans he
    rfl
  · rw [Catalog.put, NameMap.get?_insert] at he
    split at he
    · rename_i hname
      rwa [hname]
    · exact h.isKey name e he
  · split at hs
    · cases hs
    · refine ⟨_, Store.changes_save hk hd.name.1 hs, ?_⟩
      exact (toOption_eq_some_iff.2 (Document.load_text h.readsBack hd)).trans hg.symm

theorem remove (h : st.Keeps c) {name : String} (hd : ∃ d, c.databases.get? name = some d)
    (selected : Option String) :
    (st.remove name).1.Keeps ⟨c.databases.erase name, selected⟩ := by
  obtain ⟨d, hd⟩ := hd
  have hg : (c.databases.erase name).get? name = none := NameMap.get?_erase_self ..
  refine h.settle (fun e he => ?_) (fun k e he => ?_)
    (fun k hk => NameMap.get?_erase_of_ne _ hk) fun s hs => ?_
  · cases hg.symm.trans he
  · rw [NameMap.get?_erase] at he
    split at he
    · cases he
    · exact h.isKey k e he
  · split at hs
    · cases hs
    · exact ⟨none, Store.changes_remove (h.isKey name d hd) hs, hg.symm⟩

end Storage.Keeps

namespace Session

/-- What is in memory is well formed, and the storage keeps up with it. -/
structure Durable (s : Session) : Prop where
  wellFormed : s.catalog.WellFormed
  keeps : s.storage.Keeps s.catalog

theorem durable_open {reader : NumeralReader} (hr : reader.ReadsBack) {store : Store}
    (hs : store.FiledByName reader) {faults : Faults} {s : Session}
    (h : Session.open { store := store, faults := faults, reader := reader } = .ok s) :
    s.Durable := by
  refine ⟨wellFormed_open h, ?_⟩
  obtain ⟨-, rfl⟩ := open_eq_ok h
  have hg : ∀ name, store.database? reader name =
      (Catalog.ofDatabases (store.databases reader)).databases.get? name := by
    intro name
    rw [Catalog.get?_ofDatabases, hs.find?_databases]
  refine ⟨hr, hs, fun name d hd => ?_, fun name _ => hg name⟩
  rw [← hg] at hd
  obtain ⟨text, hk, hl⟩ := Store.database?_eq_some_iff.1 hd
  exact (hs _ text d hk hl).2

theorem invariant_keeps : Invariant fun dbs st => st.Keeps ⟨dbs, none⟩ where
  setFaults h _ := ⟨h.readsBack, h.filed, h.isKey, h.agrees⟩
  save h hd hn := h.save hd hn
  remove h hd := h.remove hd none

theorem Durable.run {s : Session} (h : s.Durable) (steps : List (Faults × Action)) :
    (s.run steps).Durable := by
  have hk : s.storage.Keeps ⟨s.catalog.databases, none⟩ :=
    ⟨h.keeps.readsBack, h.keeps.filed, h.keeps.isKey, h.keeps.agrees⟩
  obtain ⟨hc, hr⟩ := invariant_keeps.run h.wellFormed hk steps
  exact ⟨hc, hr.readsBack, hr.filed, hr.isKey, hr.agrees⟩

/-- When no last call was refused, a session opened on the storage has the same databases. -/
theorem Durable.open {s : Session} (h : s.Durable)
    (hl : ∀ name, lastRefused s.storage.calls name = false) (hf : s.storage.faults.load = none) :
    Session.open s.storage = .ok ⟨⟨s.catalog.databases, none⟩, s.storage⟩ := by
  have hd : (Catalog.ofDatabases (s.storage.store.databases s.storage.reader)).databases =
      s.catalog.databases := by
    refine NameMap.ext_get? fun name => ?_
    rw [Catalog.get?_ofDatabases, h.keeps.filed.find?_databases]
    exact h.keeps.agrees name (hl name)
  unfold Session.open Storage.load
  rw [hf, ← hd]
  rfl

/-- Let numbers be read from their texts. In every state of a run from a storage whose documents are
under their own names: what is read
under a name whose last call was not refused is the database that is in memory under it, and there
is none if there is none. When no last call was refused, opening gives the databases in memory. -/
theorem durable_of_run {reader : NumeralReader} (hr : reader.ReadsBack) {store : Store}
    {faults : Faults} {s₀ : Session} (hs : store.FiledByName reader)
    (h : Session.open { store := store, faults := faults, reader := reader } = .ok s₀)
    (steps : List (Faults × Action)) :
    (∀ name, lastRefused (s₀.run steps).storage.calls name = false →
      (s₀.run steps).storage.store.database? reader name =
        (s₀.run steps).catalog.databases.get? name) ∧
    ((∀ name, lastRefused (s₀.run steps).storage.calls name = false) →
      (s₀.run steps).storage.faults.load = none →
      Session.open (s₀.run steps).storage =
        .ok ⟨⟨(s₀.run steps).catalog.databases, none⟩, (s₀.run steps).storage⟩) := by
  have hd := (durable_open hr hs h).run steps
  have hreader : (s₀.run steps).storage.reader = reader := by
    rw [reader_run (wellFormed_open h), (open_eq_ok h).2]
  exact ⟨hreader ▸ hd.keeps.agrees, hd.open⟩

/-- A session on a directory without files. -/
def blank : Session := ⟨⟨.empty, none⟩, { store := .directory (.holding ["data"] .empty) }⟩

theorem filedByName_blank : blank.storage.store.FiledByName .exact := by
  intro key text d hk
  cases hk

/-- A database whose first document is refused, and the next one is not. -/
def mendedSteps : List (Faults × Action) :=
  [({ save := fun _ => some (.refused "no space left") }, .execute "CREATE DATABASE d;"),
    ({}, .executeLine "USE d;"), ({}, .flush)]

theorem lastRefused_mendedSteps (name : String) :
    lastRefused (blank.run mendedSteps).storage.calls name = false := by
  have hc : (blank.run mendedSteps).storage.calls =
      [⟨.save "d", true⟩] ++ [⟨.save "d", false⟩] := rfl
  rw [hc, lastRefused_append]
  split
  · rfl
  · rename_i hn
    rw [← List.nil_append [_], lastRefused_append]
    exact if_neg hn

theorem durable_of_mendedSteps :
    Session.open { store := .directory (.holding ["data"] .empty) } = .ok blank ∧
      (blank.run mendedSteps).storage.store.database? .exact "d" = some ⟨"d", []⟩ ∧
      Session.open (blank.run mendedSteps).storage =
        .ok ⟨⟨.ofList [("d", ⟨"d", []⟩)], none⟩, (blank.run mendedSteps).storage⟩ := by
  have ho : Session.open { store := .directory (.holding ["data"] .empty) } = .ok blank := rfl
  have h := durable_of_run NumeralReader.exact_readsBack filedByName_blank ho mendedSteps
  exact ⟨ho, h.1 "d" (lastRefused_mendedSteps "d"), h.2 lastRefused_mendedSteps rfl⟩

end Session

end TableStore

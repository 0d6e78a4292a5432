import TableStore.Proofs.Durability
import TableStore.Proofs.Frame
import TableStore.Proofs.Invariant

/-!
# Reopening

What is read after a run from any documents at all. Opening goes by the names in the documents, and
calls go by keys: a run rewrites the documents under the keys of the names that it calls for and
leaves the others as they are. So a document that is not under its own name outlives its database,
and gives way to that of another one.
-/
namespace TableStore

/-- There was a call for the name. -/
def Storage.Called (st : Storage) (name : String) : Prop := ∃ r ∈ st.calls, r.call.name = name

theorem Storage.called_settle {st : Storage} {call : StorageCall}
    {outcome : Except StorageError Store} {name : String} :
    (st.settle call outcome).1.Called name ↔ st.Called name ∨ name = call.name := by
  cases outcome <;> simp [settle, Called, or_and_right, exists_or, eq_comm]

/-- No call was refused. -/
def Storage.Succeeds (st : Storage) : Prop := ∀ r ∈ st.calls, r.refused = false

instance (st : Storage) : Decidable st.Succeeds :=
  inferInstanceAs (Decidable (∀ r ∈ st.calls, r.refused = false))

/-- The names of the calls have keys that a file can have. -/
def Storage.CallsKeys (st : Storage) (store : Store) : Prop :=
  ∀ name, st.Called name → store.IsKey (store.keyOf name)

/-- The documents that the names have to do with, by their keys or by what is in them, are under
their own names. -/
def Store.FiledFor (store : Store) (reader : NumeralReader) (p : String → Prop) : Prop :=
  ∀ key d, store.Holds reader key d → (p d.name ∨ ∃ name, p name ∧ key = store.keyOf name) →
    key = store.keyOf d.name ∧ store.IsKey key

namespace Storage

/-- The storage has the databases of its calls as they are in memory, and under all other keys what
the store had. -/
structure Rewrites (st : Storage) (store : Store) (dbs : NameMap Database) : Prop where
  keyOf : st.store.keyOf = store.keyOf
  isKey : st.store.IsKey = store.IsKey
  called : ∀ name, st.Called name →
    st.store.documentAt? (store.keyOf name) = (dbs.get? name).map Document.text
  others : ∀ key, (∀ name, st.Called name → key ≠ store.keyOf name) →
    st.store.documentAt? key = store.documentAt? key

/-- What a run from the store preserves. Names come into memory as file stems and from the documents
of the store, and a database that was not called for is the one that was read first. -/
structure Tracks (store : Store) (reader : NumeralReader) (dbs : NameMap Database) (st : Storage) :
    Prop where
  untouched : ∀ name, ¬st.Called name →
    dbs.get? name = (store.databases reader).find? fun d => d.name == name
  known : ∀ name, st.Called name →
    Catalog.isFitName name = true ∨ ∃ d ∈ store.databases reader, d.name = name
  rewrites : st.Succeeds → st.CallsKeys store → st.Rewrites store dbs

variable {st : Storage} {store : Store} {reader : NumeralReader} {dbs dbs' : NameMap Database}

namespace Rewrites

theorem settle (h : st.Rewrites store dbs) {call : StorageCall} {s : Store}
    (hn : ∀ name, name ≠ call.name → dbs'.get? name = dbs.get? name)
    (hs : st.store.Changes s call.name ((dbs'.get? call.name).map Document.text)) :
    (st.settle call (.ok s)).1.Rewrites store dbs' := by
  refine ⟨hs.keyOf.trans h.keyOf, hs.isKey.trans h.isKey, fun name hc => ?_, fun key hk => ?_⟩
  · rw [Storage.settle, hs.documentAt?, h.keyOf]
    split
    · rename_i he
      rw [store.keyOf_injective he]
    · rename_i he
      have hne : name ≠ call.name := fun h => he (congrArg store.keyOf h)
      rw [hn name hne]
      exact h.called name ((called_settle.1 hc).resolve_right hne)
  · rw [Storage.settle, hs.documentAt?, h.keyOf, if_neg (hk _ (called_settle.2 (.inr rfl)))]
    exact h.others key fun name hc => hk name (called_settle.2 (.inl hc))

/-- What can be read is what was called for as its document is read, and whatever the store had
under keys of other names. -/
theorem holds_iff (h : st.Rewrites store dbs)
    (hd : ∀ name d, dbs.get? name = some d → d.name = name ∧ d.WellFormed) {key : String}
    {d : Database} : st.store.Holds reader key d ↔
      (∃ e, st.Called e.name ∧ key = store.keyOf e.name ∧ dbs.get? e.name = some e ∧
        e.ReadAs reader d) ∨
      (store.Holds reader key d ∧ ∀ name, st.Called name → key ≠ store.keyOf name) := by
  by_cases hk : ∃ name, st.Called name ∧ key = store.keyOf name
  · obtain ⟨name, hc, rfl⟩ := hk
    have hl : st.store.Holds reader (store.keyOf name) d ↔
        ∃ e, dbs.get? name = some e ∧ e.ReadAs reader d := by
      unfold Store.Holds
      rw [h.called name hc]
      constructor
      · rintro ⟨text, ht, hl⟩
        obtain ⟨e, he, rfl⟩ := Option.map_eq_some_iff.1 ht
        exact ⟨e, he, (Document.load_text_eq_ok_iff (hd name e he).2).1 hl⟩
      · rintro ⟨e, he, hr⟩
        exact ⟨_, Option.map_eq_some_iff.2 ⟨e, he, rfl⟩,
          (Document.load_text_eq_ok_iff (hd name e he).2).2 hr⟩
    rw [hl]
    constructor
    · rintro ⟨e, he, hr⟩
      obtain ⟨rfl, -⟩ := hd name e he
      exact .inl ⟨e, hc, rfl, he, hr⟩
    · rintro (⟨e, -, hn, he, hr⟩ | ⟨-, hne⟩)
      · rw [store.keyOf_injective hn]
        exact ⟨e, he, hr⟩
      · exact absurd rfl (hne name hc)
  · have hne : ∀ name, st.Called name → key ≠ store.keyOf name := fun name hc he =>
      hk ⟨name, hc, he⟩
    have hs : st.store.Holds reader key d ↔ store.Holds reader key d := by
      unfold Store.Holds
      rw [h.others key hne]
    rw [hs]
    constructor
    · exact fun hh => .inr ⟨hh, hne⟩
    · rintro (⟨e, hc, he, -⟩ | ⟨hh, -⟩)
      · exact absurd he (hne e.name hc)
      · exact hh

theorem mem_databases_iff (h : st.Rewrites store dbs)
    (hd : ∀ name d, dbs.get? name = some d → d.name = name ∧ d.WellFormed) {d : Database} :
    d ∈ st.store.databases reader ↔
      (∃ e, st.Called e.name ∧ dbs.get? e.name = some e ∧ e.ReadAs reader d) ∨
      ∃ key, store.Holds reader key d ∧ ∀ name, st.Called name → key ≠ store.keyOf name := by
  refine Store.mem_databases.trans ((exists_congr fun key => h.holds_iff hd).trans ?_)
  rw [exists_or]
  refine or_congr_left ⟨?_, ?_⟩
  · rintro ⟨-, e, hc, -, he, hr⟩
    exact ⟨e, hc, he, hr⟩
  · rintro ⟨e, hc, he, hr⟩
    exact ⟨_, e, hc, rfl, he, hr⟩

/-! Nothing else can be read under a name when the documents that it has to do with are in their
places. -/

theorem find?_databases_of_called (h : st.Rewrites store dbs)
    (hd : ∀ name d, dbs.get? name = some d → d.name = name ∧ d.WellFormed)
    (hf : store.FiledFor reader st.Called) {name : String} (hc : st.Called name) :
    ((st.store.databases reader).find? fun d => d.name == name) =
      (dbs.get? name).bind fun d => (Document.load (Document.text d) reader).toOption := by
  refine Store.find?_databases_of_iff fun d => ?_
  have hbind : ((dbs.get? name).bind fun d => (Document.load (Document.text d) reader).toOption) =
      some d ↔ ∃ e, dbs.get? name = some e ∧ e.ReadAs reader d := by
    rw [Option.bind_eq_some_iff]
    refine exists_congr fun e => and_congr_right fun he => ?_
    rw [toOption_eq_some_iff, Document.load_text_eq_ok_iff (hd name e he).2]
  rw [hbind, h.mem_databases_iff hd]
  constructor
  · rintro ⟨⟨e, -, he, hr⟩ | ⟨key, hh, hk⟩, rfl⟩
    · exact ⟨e, by rw [hr.name, he], hr⟩
    · exact absurd (hf key d hh (.inl hc)).1 (hk d.name hc)
  · rintro ⟨e, he, hr⟩
    obtain ⟨rfl, -⟩ := hd name e he
    exact ⟨.inl ⟨e, hc, he, hr⟩, hr.name⟩

theorem find?_databases_of_not_called (h : st.Rewrites store dbs)
    (hd : ∀ name d, dbs.get? name = some d → d.name = name ∧ d.WellFormed)
    (hf : store.FiledFor reader st.Called) {name : String} (hc : ¬st.Called name) :
    ((st.store.databases reader).find? fun d => d.name == name) =
      (store.databases reader).find? fun d => d.name == name := by
  -- The document that is first may have been one of several, so the whole order has to stay.
  refine Store.find?_databases_congr fun key d hn => ?_
  subst hn
  rw [h.holds_iff hd]
  constructor
  · rintro (⟨e, hc', -, -, hr⟩ | ⟨hh, -⟩)
    · exact absurd (hr.name ▸ hc') hc
    · exact hh
  · refine fun hh => .inr ⟨hh, fun n hn he => hc ?_⟩
    have hk := (hf key d hh (.inr ⟨n, hn, he⟩)).1
    rwa [store.keyOf_injective (he.symm.trans hk)] at hn

end Rewrites

namespace Tracks

theorem settle (h : st.Tracks store reader dbs) {call : StorageCall}
    {outcome : Except StorageError Store}
    (hk : Catalog.isFitName call.name = true ∨ ∃ d, dbs.get? call.name = some d)
    (hn : ∀ name, name ≠ call.name → dbs'.get? name = dbs.get? name)
    (ho : ∀ s, outcome = .ok s → st.store.IsKey (st.store.keyOf call.name) →
      st.store.Changes s call.name ((dbs'.get? call.name).map Document.text)) :
    (st.settle call outcome).1.Tracks store reader dbs' := by
  refine ⟨fun name hc => ?_, fun name hc => ?_, fun hs hkeys => ?_⟩
  · rw [called_settle, not_or] at hc
    exact (hn name hc.2).trans (h.untouched name hc.1)
  · by_cases hc' : st.Called name
    · exact h.known name hc'
    · obtain rfl := (called_settle.1 hc).resolve_left hc'
      refine hk.imp_right ?_
      rintro ⟨d, hd⟩
      rw [h.untouched _ hc'] at hd
      exact ⟨d, List.mem_of_find?_eq_some hd, by simpa using List.find?_some hd⟩
  · cases outcome with
    | error e => exact absurd (hs ⟨call, true⟩ (by simp [Storage.settle])) (by simp)
    | ok s =>
      have hr := h.rewrites (fun r hr => hs r (List.mem_append_left _ hr)) fun name hc =>
        hkeys name (called_settle.2 (.inl hc))
      refine hr.settle hn (ho s rfl ?_)
      rw [hr.isKey, hr.keyOf]
      exact hkeys _ (called_settle.2 (.inr rfl))

/-- The name of a document that is in its place is one that a file can have. -/
theorem callsKeys (h : st.Tracks store reader dbs) (hf : store.FiledFor reader st.Called) :
    st.CallsKeys store := by
  intro name hc
  rcases h.known name hc with hn | ⟨d, hd, rfl⟩
  · exact Store.isKey_keyOf_of_isFitName hn store
  · obtain ⟨key, hh⟩ := Store.mem_databases.1 hd
    obtain ⟨rfl, hk⟩ := hf key d hh (.inl hc)
    exact hk

theorem get?_ofDatabases_of_called (h : st.Tracks store reader dbs)
    (hd : ∀ name d, dbs.get? name = some d → d.name = name ∧ d.WellFormed) (hs : st.Succeeds)
    (hf : store.FiledFor reader st.Called) {name : String} (hc : st.Called name) :
    (Catalog.ofDatabases (st.store.databases reader)).databases.get? name =
      (dbs.get? name).bind fun d => (Document.load (Document.text d) reader).toOption := by
  rw [Catalog.get?_ofDatabases]
  exact (h.rewrites hs (h.callsKeys hf)).find?_databases_of_called hd hf hc

theorem get?_ofDatabases_of_not_called (h : st.Tracks store reader dbs)
    (hd : ∀ name d, dbs.get? name = some d → d.name = name ∧ d.WellFormed) (hs : st.Succeeds)
    (hf : store.FiledFor reader st.Called) {name : String} (hc : ¬st.Called name) :
    (Catalog.ofDatabases (st.store.databases reader)).databases.get? name = dbs.get? name := by
  rw [Catalog.get?_ofDatabases, h.untouched name hc]
  exact (h.rewrites hs (h.callsKeys hf)).find?_databases_of_not_called hd hf hc

end Tracks

end Storage

namespace Session

theorem invariant_tracks (store : Store) (reader : NumeralReader) :
    Invariant fun dbs st => st.Tracks store reader dbs where
  setFaults h faults :=
    ⟨h.untouched, h.known, fun hs hk =>
      have hr := h.rewrites hs hk
      ⟨hr.keyOf, hr.isKey, hr.called, hr.others⟩⟩
  save := by
    intro dbs st d h hd hn
    refine h.settle hn (fun name hne => NameMap.get?_insert_of_ne dbs d hne) fun s hs hk => ?_
    split at hs
    · cases hs
    · rw [StorageCall.name, NameMap.get?_insert_self]
      exact Store.changes_save hk hd.name.1 hs
  remove := by
    intro dbs st name h hd
    refine h.settle (.inr hd) (fun k hne => NameMap.get?_erase_of_ne dbs hne) fun s hs hk => ?_
    split at hs
    · cases hs
    · rw [StorageCall.name, NameMap.get?_erase_self]
      exact Store.changes_remove hk hs

theorem tracks_open {store : Store} {reader : NumeralReader} {faults : Faults} {s : Session}
    (h : Session.open { store := store, faults := faults, reader := reader } = .ok s) :
    s.storage.Tracks store reader s.catalog.databases := by
  obtain ⟨-, rfl⟩ := open_eq_ok h
  refine ⟨fun name _ => Catalog.get?_ofDatabases _ name, ?_, fun _ _ => ⟨rfl, rfl, ?_, ?_⟩⟩
  · rintro name ⟨r, hr, -⟩
    cases hr
  · rintro name ⟨r, hr, -⟩
    cases hr
  · exact fun key _ => rfl

/-- After a run on any documents in which no call was refused, and one more statement: the documents
under the keys of the names that were called for are those of the databases in memory, none where
they were dropped, and all others are as they were. So what can be read is what these documents are
read as, and whatever documents under other keys have in them, be it a dropped database or another
one of the same name. Where the documents that these names have to do with are in their places,
opening gives what the documents of these databases are read as, which is the databases in memory as
far as their numbers are read back, and the very databases in memory under all other names; and all
but the one that the statement called for are as they were before it. -/
theorem reopened_of_run {store : Store} {reader : NumeralReader} {faults : Faults} {s₀ : Session}
    (ho : Session.open { store := store, faults := faults, reader := reader } = .ok s₀)
    (steps : List (Faults × Action)) (text : String) {s s' : Session} (hs : s₀.run steps = s)
    (hs' : (s.execute text).1 = s') (hr : s'.storage.Succeeds) :
    (s'.storage.CallsKeys store →
      (∀ name, s'.storage.Called name → s'.storage.store.documentAt? (store.keyOf name) =
        (s'.catalog.databases.get? name).map Document.text) ∧
      (∀ key, (∀ name, s'.storage.Called name → key ≠ store.keyOf name) →
        s'.storage.store.documentAt? key = store.documentAt? key) ∧
      ∀ d, d ∈ s'.storage.store.databases reader ↔
        (∃ e, s'.storage.Called e.name ∧ s'.catalog.databases.get? e.name = some e ∧
          e.ReadAs reader d) ∨
        ∃ key, store.Holds reader key d ∧
          ∀ name, s'.storage.Called name → key ≠ store.keyOf name) ∧
    (store.FiledFor reader s'.storage.Called → ∃ s₁ made,
      Session.open { store := s'.storage.store, reader := reader } = .ok s₁ ∧
      (∀ name, s'.storage.Called name → s₁.catalog.databases.get? name =
        (s'.catalog.databases.get? name).bind fun d =>
          (Document.load (Document.text d) reader).toOption) ∧
      (∀ name, ¬s'.storage.Called name →
        s₁.catalog.databases.get? name = s'.catalog.databases.get? name) ∧
      (∀ name d, s'.catalog.databases.get? name = some d → d.IsReadBack reader →
        s₁.catalog.databases.get? name = some d) ∧
      s'.storage.calls = s.storage.calls ++ made ∧ made.length ≤ 1 ∧
      ∀ name, (∀ r ∈ made, r.call.name ≠ name) →
        s'.catalog.databases.get? name = s.catalog.databases.get? name) := by
  subst hs hs'
  obtain ⟨hc, ht⟩ := (invariant_tracks store reader).run (wellFormed_open ho) (tracks_open ho) steps
  obtain ⟨made, hm⟩ := callsOnce_execute hc text
  have hw := (wellFormed_execute hc text).databases
  have ht' := (invariant_tracks store reader).execute hc ht text
  refine ⟨fun hk => ?_, fun hf => ?_⟩
  · have h := ht'.rewrites hr hk
    exact ⟨h.called, h.others, fun d => h.mem_databases_iff hw⟩
  · refine ⟨_, made, rfl, fun name hn => ht'.get?_ofDatabases_of_called hw hr hf hn,
      fun name hn => ht'.get?_ofDatabases_of_not_called hw hr hf hn, fun name d hd hb => ?_,
      hm.calls, hm.length, fun name hn => hm.get?_of_forall_ne hn⟩
    by_cases hn : ((s₀.run steps).execute text).1.storage.Called name
    · refine (ht'.get?_ofDatabases_of_called hw hr hf hn).trans ?_
      rw [hd]
      exact toOption_eq_some_iff.2 ((Document.load_text_eq_self_iff (hw name d hd).2).2 hb)
    · exact (ht'.get?_ofDatabases_of_not_called hw hr hf hn).trans hd

/-- A document in its place, and one under the name of another database. -/
def misfiled : Store :=
  .memory (.ofList [("a", Document.text ⟨"b", []⟩), ("c", Document.text ⟨"c", []⟩)])

theorem holds_misfiled {key : String} {d : Database} (h : misfiled.Holds .exact key d) :
    key = "a" ∧ d = ⟨"b", []⟩ ∨ key = "c" ∧ d = ⟨"c", []⟩ := by
  obtain ⟨text, hk, hl⟩ := h
  have hm : (key, text) ∈ [("a", Document.text ⟨"b", []⟩), ("c", Document.text ⟨"c", []⟩)] :=
    NameMap.get?_eq_some_iff_mem.1 hk
  have hb : Document.load (Document.text ⟨"b", []⟩) = .ok ⟨"b", []⟩ := by decide +kernel
  have hc : Document.load (Document.text ⟨"c", []⟩) = .ok ⟨"c", []⟩ := by decide +kernel
  simp only [List.mem_cons, List.not_mem_nil, or_false, Prod.mk.injEq] at hm
  rcases hm with ⟨rfl, rfl⟩ | ⟨rfl, rfl⟩
  · rw [hb] at hl
    cases hl
    exact .inl ⟨rfl, rfl⟩
  · rw [hc] at hl
    cases hl
    exact .inr ⟨rfl, rfl⟩

theorem reopened_of_misfiled :
    ∃ s, Session.open { store := misfiled } = .ok s ∧ s.catalog.names = ["b", "c"] ∧
      ∃ s₁, Session.open { store := (s.execute "DROP DATABASE c;").1.storage.store } = .ok s₁ ∧
        s₁.catalog.databases.get? "c" = none ∧ s₁.catalog.databases.get? "b" = some ⟨"b", []⟩ ∧
        (s.execute "DROP DATABASE c;").1.catalog.databases.get? "b" =
          s.catalog.databases.get? "b" := by
  have ho : Session.open { store := misfiled } =
      .ok ⟨.ofDatabases (misfiled.databases .exact), { store := misfiled }⟩ := rfl
  generalize hs : (⟨.ofDatabases (misfiled.databases .exact), { store := misfiled }⟩ : Session) = s
    at ho
  have hcalls : (s.execute "DROP DATABASE c;").1.storage.calls = [⟨.remove "c", false⟩] := by
    subst hs
    decide +kernel
  have hr : (s.execute "DROP DATABASE c;").1.storage.Succeeds := by
    rw [Storage.Succeeds, hcalls]
    decide
  have hc : ∀ name, (s.execute "DROP DATABASE c;").1.storage.Called name ↔ name = "c" := by
    intro name
    rw [Storage.Called, hcalls]
    simp [StorageCall.name, eq_comm]
  have hf : misfiled.FiledFor .exact (s.execute "DROP DATABASE c;").1.storage.Called := by
    intro key d hh hp
    rcases holds_misfiled hh with ⟨rfl, rfl⟩ | ⟨rfl, rfl⟩
    · rcases hp with hp | ⟨name, hn, he⟩
      · exact absurd ((hc _).1 hp) (by decide)
      · rw [(hc name).1 hn] at he
        exact absurd he (by decide)
    · exact ⟨rfl, trivial⟩
  obtain ⟨s₁, made, ho₁, hcalled, -, hback, hm, -, hothers⟩ :=
    (reopened_of_run ho [] "DROP DATABASE c;" (s := s) rfl rfl hr).2 hf
  have hgone : (s.execute "DROP DATABASE c;").1.catalog.databases.get? "c" = none := by
    subst hs
    decide +kernel
  have hb : (s.execute "DROP DATABASE c;").1.catalog.databases.get? "b" = some ⟨"b", []⟩ := by
    subst hs
    decide +kernel
  refine ⟨s, ho, ?_, s₁, ho₁, ?_, hback "b" _ hb (by simp [Database.IsReadBack]),
    hothers "b" fun r hr => ?_⟩
  · subst hs
    decide +kernel
  · rw [hcalled "c" ((hc "c").2 rfl), hgone]
    rfl
  · have hn : s.storage.calls = [] := by
      subst hs
      rfl
    rw [hcalls, hn, List.nil_append] at hm
    rw [← hm, List.mem_singleton] at hr
    subst hr
    decide

/-- A database that is dropped is there again, and another one is lost to the database that is
created. -/
theorem misfiled_reopened :
    ∃ s, Session.open { store := misfiled } = .ok s ∧
      ((s.execute "DROP DATABASE b;").1.storage.Succeeds ∧
        (s.execute "DROP DATABASE b;").1.catalog.names = ["c"] ∧
        ∃ s₁, Session.open { store := (s.execute "DROP DATABASE b;").1.storage.store } = .ok s₁ ∧
          s₁.catalog.names = ["b", "c"]) ∧
      (s.execute "CREATE DATABASE a;").1.storage.Succeeds ∧
        (s.execute "CREATE DATABASE a;").1.catalog.names = ["a", "b", "c"] ∧
        ∃ s₁, Session.open { store := (s.execute "CREATE DATABASE a;").1.storage.store } = .ok s₁ ∧
          s₁.catalog.names = ["a", "c"] := by
  refine ⟨_, rfl, ⟨?_, ?_, _, rfl, ?_⟩, ?_, ?_, _, rfl, ?_⟩
  · decide +kernel
  · decide +kernel
  · decide +kernel
  · decide +kernel
  · decide +kernel
  · decide +kernel

end Session

end TableStore

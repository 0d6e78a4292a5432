import Mathlib.Data.List.Infix
import TableStore.Proofs.Containment
import TableStore.Proofs.FaultIsolation

/-!
# The two kinds of store

A session on a directory and one on a map in memory that begin with nothing stay alike. They answer
the same and make the same calls, and the file of a name holds what the map has under the name,
given that the file system has room for every file that is asked for.
-/
namespace TableStore

/-! Directories and maps -/

namespace Directory

/-- Where the file of a name without slashes is depends on where the directory is alone. -/
theorem locate_congr {dir dir' : Directory} (hl : dir.location = dir'.location) {name : String}
    (h : '/' ∉ (fileName name).toList) : dir.locate name = dir'.locate name := by
  have hs : dir.pathSize (fileName name) = dir'.pathSize (fileName name) := by
    rw [pathSize, pathSize, hl]
  rw [locate, locate, hs, ofText_fileName h]
  rfl

/-- A directory at that place can have a file for the name. -/
def Accepts (location : List String) (name : String) : Prop :=
  ∃ r, (holding location .empty).locate name = .ok r

theorem locate_of_accepts {dir : Directory} {name : String} (hn : IsFileStem name)
    (ha : Accepts dir.location name) : dir.locate name = .ok (.inside, fileName name) := by
  obtain ⟨⟨place, file⟩, hr⟩ := ha
  obtain ⟨rfl, rfl⟩ := hn.locate hr
  rw [← hr]
  have hl : dir.location = (holding dir.location .empty).location := rfl
  exact locate_congr hl hn.slash_notMem_fileName

/-- The directory holds the documents of a map, each in the file of its name, and nothing else. -/
structure Mirrors (docs : NameMap String) (dir : Directory) : Prop where
  files : ∀ name, dir.files.get? (fileName name) = (docs.get? name).map fun x => .file (.text x)
  only : ∀ file, (∀ name, file ≠ fileName name) → dir.files.get? file = none

namespace Mirrors

variable {docs : NameMap String} {dir : Directory}

theorem files_iff (h : dir.Mirrors docs) (name text : String) :
    dir.files.get? (fileName name) = some (.file (.text text)) ↔ docs.get? name = some text := by
  rw [h.files]
  simp

theorem put (h : dir.Mirrors docs) (name text : String) :
    (dir.put .inside (fileName name) text).Mirrors (docs.insert name text) := by
  constructor
  · intro n
    rw [Directory.put, NameMap.get?_insert, NameMap.get?_insert]
    by_cases hn : n = name
    · rw [hn, if_pos rfl, if_pos rfl]
      rfl
    · rw [if_neg hn, if_neg fun he => hn (fileName_injective he), h.files]
  · intro file hf
    rw [Directory.put, NameMap.get?_insert_of_ne _ _ (hf name)]
    exact h.only file hf

theorem take (h : dir.Mirrors docs) (name : String) :
    (dir.take .inside (fileName name)).Mirrors (docs.erase name) := by
  constructor
  · intro n
    rw [Directory.take, NameMap.get?_erase, NameMap.get?_erase]
    by_cases hn : n = name
    · rw [hn, if_pos rfl, if_pos rfl]
      rfl
    · rw [if_neg hn, if_neg fun he => hn (fileName_injective he), h.files]
  · intro file hf
    rw [Directory.take, NameMap.get?_erase_of_ne _ (hf name)]
    exact h.only file hf

/-- No folder is in the place of a file. -/
theorem occupant?_ne_folder (h : dir.Mirrors docs) (name : String) (p : Place) :
    dir.occupant? .inside (fileName name) ≠ some (.folder p) := by
  rw [occupant?, h.files]
  cases docs.get? name <;> simp

theorem save (h : dir.Mirrors docs) {name : String} (hn : IsFileStem name)
    (ha : Accepts dir.location name) (text : String) :
    dir.save name text = .ok (dir.put .inside (fileName name) text) := by
  rw [Directory.save, locate_of_accepts hn ha, ok_bind]
  dsimp only
  split
  · rename_i ho
    exact absurd ho (h.occupant?_ne_folder name _)
  · rfl

theorem remove (h : dir.Mirrors docs) {name : String} (hn : IsFileStem name)
    (ha : Accepts dir.location name) :
    dir.remove name = .ok (dir.take .inside (fileName name)) := by
  rw [Directory.remove, locate_of_accepts hn ha]
  dsimp only
  split
  · rename_i ho
    exact absurd ho (h.occupant?_ne_folder name _)
  · rfl

end Mirrors

end Directory

/-! Stores -/

/-- A name whose file can be in a directory at that place. -/
structure Fits (location : List String) (name : String) : Prop where
  isFileStem : IsFileStem name
  accepts : Directory.Accepts location name

namespace Store

/-- A map in memory of documents that were saved, and the directory of the same documents. -/
inductive Mirrors (location : List String) : Store → Store → Prop
  | intro {docs : NameMap String} {dir : Directory} (hl : dir.location = location)
    (hm : dir.Mirrors docs)
    (hs : ∀ name text, docs.get? name = some text → Fits location name ∧
      ∃ d : Database, d.WellFormed ∧ d.name = name ∧ text = Document.text d) :
    Mirrors location (.memory docs) (.directory dir)

namespace Mirrors

variable {location : List String} {s s' : Store}

theorem save (h : Mirrors location s s') {d : Database} (hd : d.WellFormed)
    (hf : Fits location d.name) :
    ∃ t t', s.save d = .ok t ∧ s'.save d = .ok t' ∧ Mirrors location t t' := by
  obtain ⟨rfl, hm, hs⟩ := h
  rename_i docs dir
  have hsave := hm.save hf.isFileStem hf.accepts (Document.text d)
  refine ⟨_, .directory _, rfl, map_eq_ok_iff.2 ⟨_, hsave, rfl⟩, rfl, hm.put d.name _, ?_⟩
  intro name text hn
  rw [NameMap.get?_insert] at hn
  split at hn
  · rename_i he
    cases hn
    rw [he]
    exact ⟨hf, d, hd, rfl, rfl⟩
  · exact hs name text hn

theorem remove (h : Mirrors location s s') {name : String} (hf : Fits location name) :
    ∃ t t', s.remove name = .ok t ∧ s'.remove name = .ok t' ∧ Mirrors location t t' := by
  obtain ⟨rfl, hm, hs⟩ := h
  rename_i docs dir
  have hremove := hm.remove hf.isFileStem hf.accepts
  refine ⟨_, .directory _, rfl, map_eq_ok_iff.2 ⟨_, hremove, rfl⟩, rfl, hm.take name, ?_⟩
  intro n text hn
  rw [NameMap.get?_erase] at hn
  split at hn
  · cases hn
  · exact hs n text hn

theorem exists_mirrors (h : Mirrors location s s') :
    ∃ docs dir, s = .memory docs ∧ s' = .directory dir ∧ dir.Mirrors docs := by
  obtain ⟨-, hm, -⟩ := h
  exact ⟨_, _, rfl, rfl, hm⟩

/-- Both stores have the same document for a name. -/
theorem documentAt? (h : Mirrors location s s') (name : String) :
    s'.documentAt? (s'.keyOf name) = s.documentAt? (s.keyOf name) := by
  obtain ⟨-, hm, hs⟩ := h
  rename_i docs dir
  change (dir.files.get? (Directory.fileName name)).bind _ = docs.get? name
  rw [hm.files]
  cases hd : docs.get? name with
  | none => rfl
  | some text =>
    exact if_pos (Directory.isDocumentName_fileName (hs name text hd).1.isFileStem.ne_empty)

theorem filedByName (h : Mirrors location s s') (reader : NumeralReader) :
    s.FiledByName reader := by
  obtain ⟨-, -, hs⟩ := h
  intro key text d hk hl
  obtain ⟨-, e, he, rfl, rfl⟩ := hs key text hk
  rw [((Document.load_text_eq_ok_iff he).1 hl).name]
  exact ⟨rfl, trivial⟩

theorem filedByName_directory (h : Mirrors location s s') (reader : NumeralReader) :
    s'.FiledByName reader := by
  intro key text d hk hl
  have hread := h.documentAt?
  have hfiled := h.filedByName reader
  obtain ⟨-, hm, hs⟩ := h
  rename_i docs dir
  by_cases hkey : ∃ name, key = Directory.fileName name
  · obtain ⟨name, rfl⟩ := hkey
    have hd : docs.get? name = some text := (hread name).symm.trans hk
    obtain ⟨rfl, -⟩ := hfiled name text d hd hl
    exact ⟨rfl, (hs _ text hd).1.isFileStem.slash_notMem_fileName⟩
  · rw [Store.documentAt?, hm.only key fun name he => hkey ⟨name, he⟩] at hk
    cases hk

/-- Both stores are read as the same catalog. -/
theorem ofDatabases (h : Mirrors location s s') (reader : NumeralReader) :
    Catalog.ofDatabases (s'.databases reader) = Catalog.ofDatabases (s.databases reader) := by
  have hg : (Catalog.ofDatabases (s'.databases reader)).databases =
      (Catalog.ofDatabases (s.databases reader)).databases := by
    refine NameMap.ext_get? fun name => ?_
    rw [Catalog.get?_ofDatabases, Catalog.get?_ofDatabases, (h.filedByName reader).find?_databases,
      (h.filedByName_directory reader).find?_databases, database?, database?, h.documentAt?]
  exact congrArg (Catalog.mk · none) hg

theorem fits (h : Mirrors location s s') {reader : NumeralReader} {d : Database}
    (hd : d ∈ s.databases reader) : Fits location d.name := by
  obtain ⟨key, text, hk, hl⟩ := mem_databases.1 hd
  obtain ⟨rfl, -⟩ := h.filedByName reader key text d hk hl
  obtain ⟨-, -, hs⟩ := h
  exact (hs _ text hk).1

end Mirrors

end Store

/-! Storages -/

theorem Session.flushOne_snd (r : Storage × Except Error Unit) (d : Database) :
    (flushOne r d).2 = match (r.1.save d).2 with
      | .ok () => r.2
      | .error e => .error e := by
  unfold flushOne
  cases h : r.1.save d with
  | mk st outcome => cases outcome <;> rfl

/-- Storages on mirrored stores that refuse and have recorded the same calls. -/
structure Storage.Mirrors (location : List String) (st st' : Storage) : Prop where
  store : Store.Mirrors location st.store st'.store
  faults : st'.faults = st.faults
  reader : st'.reader = st.reader
  calls : st'.calls = st.calls

namespace Storage.Mirrors

variable {location : List String} {st st' : Storage}

theorem setFaults (h : Mirrors location st st') (faults : Faults) :
    Mirrors location { st with faults := faults } { st' with faults := faults } :=
  ⟨h.store, rfl, h.reader, h.calls⟩

/-- A call has the same outcome for both, and if it goes through they still mirror each other. -/
theorem settle (h : Mirrors location st st') (call : StorageCall)
    {outcome outcome' : Except StorageError Store}
    (ho : (∃ e, outcome = .error e ∧ outcome' = .error e) ∨
      ∃ t t', outcome = .ok t ∧ outcome' = .ok t' ∧ Store.Mirrors location t t') :
    Mirrors location (st.settle call outcome).1 (st'.settle call outcome').1 ∧
      (st'.settle call outcome').2 = (st.settle call outcome).2 := by
  have hcalls : ∀ refused, st'.calls ++ [⟨call, refused⟩] = st.calls ++ [⟨call, refused⟩] :=
    fun _ => by rw [h.calls]
  rcases ho with ⟨e, rfl, rfl⟩ | ⟨t, t', rfl, rfl, ht⟩
  · exact ⟨⟨h.store, h.faults, h.reader, hcalls true⟩, rfl⟩
  · exact ⟨⟨ht, h.faults, h.reader, hcalls false⟩, rfl⟩

theorem save (h : Mirrors location st st') {d : Database} (hd : d.WellFormed)
    (hf : Fits location d.name) :
    Mirrors location (st.save d).1 (st'.save d).1 ∧ (st'.save d).2 = (st.save d).2 := by
  refine h.settle (.save d.name) ?_
  rw [h.faults]
  cases st.faults.save d.name with
  | some e => exact .inl ⟨e, rfl, rfl⟩
  | none => exact .inr (h.store.save hd hf)

theorem remove (h : Mirrors location st st') {name : String} (hf : Fits location name) :
    Mirrors location (st.remove name).1 (st'.remove name).1 ∧
      (st'.remove name).2 = (st.remove name).2 := by
  refine h.settle (.remove name) ?_
  rw [h.faults]
  cases st.faults.remove name with
  | some e => exact .inl ⟨e, rfl, rfl⟩
  | none => exact .inr (h.store.remove hf)

theorem flushOne {r r' : Storage × Except Error Unit} (h : Mirrors location r.1 r'.1)
    (ho : r'.2 = r.2) {d : Database} (hd : d.WellFormed) (hf : Fits location d.name) :
    Mirrors location (Session.flushOne r d).1 (Session.flushOne r' d).1 ∧
      (Session.flushOne r' d).2 = (Session.flushOne r d).2 := by
  obtain ⟨hs, hr⟩ := h.save hd hf
  rw [Session.flushOne_fst, Session.flushOne_fst, Session.flushOne_snd, Session.flushOne_snd, hr, ho]
  exact ⟨hs, rfl⟩

theorem foldl_flushOne {ds : List Database} (hd : ∀ d ∈ ds, d.WellFormed ∧ Fits location d.name)
    (r r' : Storage × Except Error Unit) (h : Mirrors location r.1 r'.1) (ho : r'.2 = r.2) :
    Mirrors location (ds.foldl Session.flushOne r).1 (ds.foldl Session.flushOne r').1 ∧
      (ds.foldl Session.flushOne r').2 = (ds.foldl Session.flushOne r).2 := by
  induction ds generalizing r r' with
  | nil => exact ⟨h, ho⟩
  | cons d ds ih =>
    rw [List.forall_mem_cons] at hd
    obtain ⟨hs, hr⟩ := h.flushOne ho hd.1.1 hd.1.2
    exact ih hd.2 _ _ hs hr

end Storage.Mirrors

/-! Sessions -/

namespace Session

/-- What a call answers, if it answers anything. -/
def answer (s : Session) : Action → Except Error (Option Reply)
  | .execute text => (s.execute text).2.map some
  | .executeLine line => (s.executeLine line).2
  | .flush => s.flush.2.map fun _ => none

/-- Sessions with one catalog on storages that mirror each other. -/
structure Mirrors (location : List String) (s s' : Session) : Prop where
  catalog : s'.catalog = s.catalog
  wellFormed : s.catalog.WellFormed
  fits : ∀ name d, s.catalog.databases.get? name = some d → Fits location name
  storage : s.storage.Mirrors location s'.storage

variable {location : List String} {s s' : Session}

theorem mirrors_open {st st' : Storage} (h : st.Mirrors location st') :
    (∃ s s', Session.open st = .ok s ∧ Session.open st' = .ok s' ∧ Mirrors location s s') ∨
    ∃ e, Session.open st = .error e ∧ Session.open st' = .error e := by
  unfold Session.open Storage.load
  rw [h.faults]
  cases st.faults.load with
  | some e => exact .inr ⟨_, rfl, rfl⟩
  | none =>
    have hd : Catalog.ofDatabases (st'.store.databases st'.reader) =
        Catalog.ofDatabases (st.store.databases st.reader) := by
      rw [h.reader, h.store.ofDatabases]
    refine .inl ⟨_, _, rfl, rfl, hd, ?_, fun name d hd => ?_, h⟩
    · exact Catalog.wellFormed_ofDatabases Store.wellFormed_databases
    · rw [Catalog.get?_ofDatabases] at hd
      have hn : d.name = name := by simpa using List.find?_some hd
      rw [← hn]
      exact h.store.fits (List.mem_of_find?_eq_some hd)

theorem calls_execute (hc : s.catalog.WellFormed) (text : String) :
    s.storage.calls.map CallRecord.call <+:
      (s.execute text).1.storage.calls.map CallRecord.call := by
  rw [(Prod.mk.inj (execute_eq_commit s text)).1, calls_commit (planText_moves hc text)]
  exact List.prefix_append _ _

theorem calls_act (hc : s.catalog.WellFormed) (a : Action) :
    s.storage.calls.map CallRecord.call <+: (s.act a).storage.calls.map CallRecord.call := by
  rcases act_cases s a with ha | ⟨text, ha⟩ | ha
  · rw [ha]
  · rw [ha]
    exact calls_execute hc text
  · rw [ha, calls_flush]
    exact List.prefix_append _ _

namespace Mirrors

theorem setFaults (h : Mirrors location s s') (faults : Faults) :
    Mirrors location (s.setFaults faults) (s'.setFaults faults) :=
  ⟨h.catalog, h.wellFormed, h.fits, h.storage.setFaults faults⟩

theorem commit {α : Type} (h : Mirrors location s s') {ch : Change α}
    (hm : s.catalog.Moves ch.catalog ch.call)
    (ha : ∀ name, ch.call = some (.save name) → Directory.Accepts location name) :
    Mirrors location (s.commit ch).1 (s'.commit ch).1 ∧ (s'.commit ch).2 = (s.commit ch).2 := by
  have hc := hm.wellFormed h.wellFormed
  obtain ⟨c₀, st⟩ := s
  obtain ⟨_, st'⟩ := s'
  obtain rfl : _ = c₀ := h.catalog
  obtain ⟨c, call, a⟩ := ch
  dsimp only at hm ha hc
  cases hm with
  | stay => exact ⟨⟨rfl, hc, h.fits, h.storage⟩, rfl⟩
  | select _ => exact ⟨⟨rfl, hc, h.fits, h.storage⟩, rfl⟩
  | @put d hd hn =>
    have hf : Fits location d.name := by
      refine ⟨?_, ha d.name rfl⟩
      rcases hn with hn | ⟨e, he⟩
      · exact isFileStem_iff.2 ⟨hd.name.1, hn⟩
      · exact (h.fits _ e he).isFileStem
    obtain ⟨hs, hr⟩ := h.storage.save hd hf
    rw [commit_put, commit_put, hr]
    refine ⟨⟨rfl, hc, fun name e he => ?_, hs⟩, rfl⟩
    dsimp only at he
    rw [Catalog.put, NameMap.get?_insert] at he
    split at he
    · rename_i hname
      rw [hname]
      exact hf
    · exact h.fits name e he
  | @drop name hd =>
    obtain ⟨d, hd⟩ := hd
    obtain ⟨hs, hr⟩ := h.storage.remove (h.fits name d hd)
    rw [commit_remove, commit_remove, hr]
    refine ⟨⟨rfl, hc, fun k e he => ?_, hs⟩, rfl⟩
    dsimp only at he
    rw [NameMap.get?_erase] at he
    split at he
    · cases he
    · exact h.fits k e he

theorem execute (h : Mirrors location s s') {text : String}
    (ha : ∀ name, .save name ∈ (s.execute text).1.storage.calls.map CallRecord.call →
      Directory.Accepts location name) :
    Mirrors location (s.execute text).1 (s'.execute text).1 ∧
      (s'.execute text).2.map some = (s.execute text).2.map some := by
  have hm := planText_moves h.wellFormed text
  obtain ⟨hs, hr⟩ := Prod.mk.inj (execute_eq_commit s text)
  obtain ⟨hs', hr'⟩ := Prod.mk.inj (execute_eq_commit s' text)
  rw [h.catalog] at hs' hr'
  rw [hs] at ha ⊢
  rw [hs', hr, hr']
  obtain ⟨hc, ho⟩ := h.commit hm fun name hn => ha name (by simp [calls_commit hm, hn])
  exact ⟨hc, congrArg (Except.bind · id) ho⟩

theorem flush (h : Mirrors location s s') :
    Mirrors location s.flush.1 s'.flush.1 ∧ s'.flush.2 = s.flush.2 := by
  have hd : ∀ d ∈ s.catalog.databases.values, d.WellFormed ∧ Fits location d.name := by
    intro d hd
    obtain ⟨hg, hw⟩ := h.wellFormed.of_mem_values hd
    exact ⟨hw, h.fits _ d hg⟩
  have hf := Storage.Mirrors.foldl_flushOne hd (s.storage, .ok ()) (s'.storage, .ok ()) h.storage rfl
  unfold Session.flush
  rw [h.catalog]
  exact ⟨⟨h.catalog, h.wellFormed, h.fits, hf.1⟩, hf.2⟩

/-- A call does the same to both sessions and has one answer. -/
theorem act (h : Mirrors location s s') {a : Action}
    (ha : ∀ name, .save name ∈ (s.act a).storage.calls.map CallRecord.call →
      Directory.Accepts location name) :
    Mirrors location (s.act a) (s'.act a) ∧ s'.answer a = s.answer a := by
  cases a with
  | execute text => exact h.execute ha
  | executeLine line =>
    rw [Session.act, Session.act, answer, answer, executeLine, executeLine]
    rw [Session.act, executeLine] at ha
    split
    · exact ⟨h, rfl⟩
    · rename_i hl
      rw [if_neg hl] at ha
      exact h.execute ha
  | flush =>
    obtain ⟨hs, hr⟩ := h.flush
    exact ⟨hs, congrArg (Except.map fun _ => none) hr⟩

end Mirrors

end Session

/-! Connections -/

namespace Connection

/-- What a call answers; without a session there is no answer but to opening one. -/
def answer : Connection → Action → Option (Except Error (Option Reply))
  | opened s, .session a => some (s.answer a)
  | opened s, .shutdown => some ((shutdown s).2.map fun _ => none)
  | closed _, .session _ => none
  | closed _, .shutdown => none
  | c, .reopen => some (c.reopen.2.map fun _ => none)

/-- The answers in the course of a run. -/
def answers (c : Connection) :
    List (Faults × Action) → List (Option (Except Error (Option Reply)))
  | [] => []
  | x :: steps => (c.setFaults x.1).answer x.2 :: ((c.setFaults x.1).act x.2).answers steps

theorem storage_reopen (c : Connection) : c.reopen.1.storage = c.storage := by
  unfold reopen
  split
  · rename_i ho
    obtain ⟨-, rfl⟩ := Session.open_eq_ok ho
    rfl
  · rfl

/-- The calls that a run makes come after those that were made before. -/
theorem calls_act {c : Connection} (hc : c.WellFormed) (a : Action) :
    c.storage.calls.map CallRecord.call <+: (c.act a).storage.calls.map CallRecord.call := by
  cases a with
  | session a =>
    cases c with
    | opened s => exact Session.calls_act (hc s rfl) a
    | closed st => exact List.prefix_rfl
  | shutdown =>
    cases c with
    | opened s => exact ⟨_, (Session.calls_flush s).symm⟩
    | closed st => exact List.prefix_rfl
  | reopen =>
    have hs : c.storage.calls.map CallRecord.call <+:
        c.reopen.1.storage.calls.map CallRecord.call := by
      rw [storage_reopen]
    cases c <;> exact hs

theorem calls_run {c : Connection} (hc : c.WellFormed) (steps : List (Faults × Action)) :
    c.storage.calls.map CallRecord.call <+: (c.run steps).storage.calls.map CallRecord.call := by
  induction steps generalizing c with
  | nil => exact List.prefix_rfl
  | cons x steps ih =>
    have hs : (c.setFaults x.1).storage.calls = c.storage.calls := by cases c <;> rfl
    have ha := calls_act (hc.setFaults x.1) x.2
    rw [hs] at ha
    exact ha.trans (ih ((hc.setFaults x.1).act x.2))

inductive Mirrors (location : List String) : Connection → Connection → Prop
  | opened {s s' : Session} (h : s.Mirrors location s') : Mirrors location (.opened s) (.opened s')
  | closed {st st' : Storage} (h : st.Mirrors location st') :
    Mirrors location (.closed st) (.closed st')

namespace Mirrors

variable {location : List String} {c c' : Connection}

theorem wellFormed (h : Mirrors location c c') : c.WellFormed := by
  cases h with
  | opened h =>
    intro s hs
    cases hs
    exact h.wellFormed
  | closed h => exact wellFormed_closed _

theorem storage (h : Mirrors location c c') : c.storage.Mirrors location c'.storage := by
  cases h with
  | opened h => exact h.storage
  | closed h => exact h

theorem selected (h : Mirrors location c c') : c'.selected = c.selected := by
  cases h with
  | opened h => exact congrArg Catalog.selected h.catalog
  | closed h => rfl

theorem setFaults (h : Mirrors location c c') (faults : Faults) :
    Mirrors location (c.setFaults faults) (c'.setFaults faults) := by
  cases h with
  | opened h => exact .opened (h.setFaults faults)
  | closed h => exact .closed (h.setFaults faults)

theorem reopen (h : Mirrors location c c') :
    Mirrors location c.reopen.1 c'.reopen.1 ∧ c'.reopen.2 = c.reopen.2 := by
  unfold Connection.reopen
  rcases Session.mirrors_open h.storage with ⟨s, s', hs, hs', hm⟩ | ⟨e, hs, hs'⟩
  · rw [hs, hs']
    exact ⟨.opened hm, rfl⟩
  · rw [hs, hs']
    exact ⟨.closed h.storage, rfl⟩

theorem act (h : Mirrors location c c') {a : Action}
    (ha : ∀ name, .save name ∈ (c.act a).storage.calls.map CallRecord.call →
      Directory.Accepts location name) :
    Mirrors location (c.act a) (c'.act a) ∧ c'.answer a = c.answer a := by
  cases a with
  | session a =>
    cases h with
    | opened h =>
      obtain ⟨hs, hr⟩ := h.act ha
      exact ⟨.opened hs, congrArg some hr⟩
    | closed h => exact ⟨.closed h, rfl⟩
  | shutdown =>
    cases h with
    | opened h =>
      obtain ⟨hs, hr⟩ := h.flush
      exact ⟨.closed hs.storage, congrArg (fun r => some (Except.map (fun _ => none) r)) hr⟩
    | closed h => exact ⟨.closed h, rfl⟩
  | reopen =>
    obtain ⟨hs, hr⟩ := h.reopen
    have hr' := congrArg (fun r => some (Except.map (fun _ => (none : Option Reply)) r)) hr
    cases h <;> exact ⟨hs, hr'⟩

theorem run (h : Mirrors location c c') {steps : List (Faults × Action)}
    (ha : ∀ name, .save name ∈ (c.run steps).storage.calls.map CallRecord.call →
      Directory.Accepts location name) :
    Mirrors location (c.run steps) (c'.run steps) ∧ c'.answers steps = c.answers steps := by
  induction steps generalizing c c' with
  | nil => exact ⟨h, rfl⟩
  | cons x steps ih =>
    have hf := h.setFaults x.1
    have hp := calls_run (hf.wellFormed.act x.2) steps
    obtain ⟨hc, hr⟩ := hf.act fun name hn => ha name (hp.subset hn)
    obtain ⟨hrun, hrs⟩ := ih hc ha
    refine ⟨hrun, ?_⟩
    rw [answers, answers, hr, hrs]

end Mirrors

theorem mirrors_empty (location : List String) (reader : NumeralReader) :
    Mirrors location (closed { store := .memory .empty, reader := reader })
      (closed { store := .directory (.holding location .empty), reader := reader }) := by
  refine .closed ⟨.intro rfl ⟨fun _ => rfl, fun _ _ => rfl⟩ ?_, rfl, rfl, rfl⟩
  intro name text h
  cases h

/-- A run on an empty map in memory and the same run on an empty directory, anywhere, answer the
same at every step and come to the same selection and the same calls. Then the directory has a
document in the file of a name just when the map has it under the name. This is on the assumption
that the directory can have the files that the run asks for. -/
theorem mirrored_of_run (location : List String) (reader : NumeralReader)
    (steps : List (Faults × Action))
    (ha : ∀ name, .save name ∈
      ((closed { store := .memory .empty, reader := reader }).run steps).storage.calls.map
        CallRecord.call → Directory.Accepts location name) :
    let memory := closed { store := .memory .empty, reader := reader }
    let directory := closed { store := .directory (.holding location .empty), reader := reader }
    directory.answers steps = memory.answers steps ∧
    (directory.run steps).selected = (memory.run steps).selected ∧
    (directory.run steps).storage.calls = (memory.run steps).storage.calls ∧
    ∃ docs dir, (memory.run steps).storage.store = .memory docs ∧
      (directory.run steps).storage.store = .directory dir ∧
      ∀ name text, dir.files.get? (Directory.fileName name) = some (.file (.text text)) ↔
        docs.get? name = some text := by
  intro memory directory
  obtain ⟨h, hr⟩ := (mirrors_empty location reader).run ha
  obtain ⟨docs, dir, hs, hs', hm⟩ := h.storage.store.exists_mirrors
  exact ⟨hr, h.selected, h.storage.calls, docs, dir, hs, hs', hm.files_iff⟩

/-- A database of an odd name, whose document is refused at first and stored in the end. -/
def oddSteps : List (Faults × Action) :=
  [({}, .reopen),
    ({ save := fun _ => some (.refused "no space left") },
      .session (.execute "CREATE DATABASE a.json;")),
    ({}, .session (.executeLine "USE a.json;")),
    ({}, .shutdown),
    ({}, .reopen)]

theorem mirrored_of_oddSteps :
    ((closed { store := .memory .empty }).run oddSteps).storage.calls =
      [⟨.save "a.json", true⟩, ⟨.save "a.json", false⟩] ∧
    (closed { store := .directory (.holding ["data"] .empty) }).answers oddSteps =
      (closed { store := .memory .empty }).answers oddSteps ∧
    ∃ docs dir, ((closed { store := .memory .empty }).run oddSteps).storage.store = .memory docs ∧
      ((closed { store := .directory (.holding ["data"] .empty) }).run oddSteps).storage.store =
        .directory dir ∧
      (dir.files.get? "a.json.json" = some (.file (.text (Document.text ⟨"a.json", []⟩))) ↔
        docs.get? "a.json" = some (Document.text ⟨"a.json", []⟩)) := by
  have hc : ((closed { store := .memory .empty }).run oddSteps).storage.calls =
      [⟨.save "a.json", true⟩, ⟨.save "a.json", false⟩] := rfl
  obtain ⟨hr, -, -, docs, dir, hs, hs', hd⟩ := mirrored_of_run ["data"] .exact oddSteps (by
    intro name hn
    rw [hc] at hn
    obtain rfl : name = "a.json" := by simpa using hn
    exact ⟨(.inside, "a.json.json"), rfl⟩)
  exact ⟨hc, hr, docs, dir, hs, hs', hd "a.json" _⟩

end Connection

end TableStore

import TableStore.Proofs.Bytes
import TableStore.Proofs.Mirror
import TableStore.Proofs.Overwriting

/-!
# Storing everything

Every database is saved once, in the order of names, whichever of the saves are refused. The last
refusal is the answer. A document stays where it is put unless a later one is put in its place, as
happens where two names are those of one file. Where each name has a file or key of its own, no save
has to do with another: the documents of the databases that are not refused are what is in memory,
and nothing else changes.
-/
namespace TableStore

/-! Refusals -/

/-- Why the store does not take the document of a database, if it does not. -/
def Store.refusal (s : Store) (d : Database) : Option StorageError :=
  match s.save d with
  | .ok _ => none
  | .error e => some e

namespace Directory

variable {dir dir' : Directory}

theorem SameFolders.isFolder_iff (h : dir.SameFolders dir') (name : String) :
    dir'.files.get? name = some .folder ↔ dir.files.get? name = some .folder := by
  have hfiles : ∀ dir : Directory, dir.files.get? name = some .folder ↔
      dir.occupant? .inside name = some (.folder (.below name)) := by
    intro dir
    rw [occupant?]
    rcases dir.files.get? name with _ | _ | _ <;> simp
  rw [hfiles, hfiles]
  exact h.folders .inside name (.below name)

/-- The file in which the document of a name comes to stand, if it is one of the directory that is
taken as a document. -/
def target? (dir : Directory) (name : String) : Option String :=
  match dir.locate name with
  | .ok (.inside, file) => if isDocumentName file then some file else none
  | _ => none

theorem target?_eq_some_iff {name file : String} : dir.target? name = some file ↔
    dir.locate name = .ok (.inside, file) ∧ isDocumentName file = true := by
  unfold target?
  rcases dir.locate name with e | ⟨_ | _ | _, file'⟩
  · simp
  · simp only [Option.ite_none_right_eq_some, Option.some.injEq, Except.ok.injEq, Prod.mk.injEq,
      true_and]
    constructor
    · rintro ⟨hn, rfl⟩
      exact ⟨rfl, hn⟩
    · rintro ⟨rfl, hn⟩
      exact ⟨hn, rfl⟩
  · simp
  · simp

theorem SameFolders.target? (h : dir.SameFolders dir') : dir'.target? = dir.target? := by
  funext name
  refine Option.ext fun file => ?_
  rw [target?_eq_some_iff, target?_eq_some_iff, h.locate_eq_ok_iff]

/-- A document is refused when there can be no file for it, or a folder is in the place of the
file. -/
theorem save_eq_error_iff {name document : String} (hk : '/' ∉ (fileName name).toList)
    {e : StorageError} : dir.save name document = .error e ↔
      dir.locate name = .error e ∨
      dir.locate name = .ok (.inside, fileName name) ∧
        dir.files.get? (fileName name) = some .folder ∧ e = .isFolder := by
  unfold save
  rcases locate_cases dir hk with hl | ⟨e', -, hl⟩
  · rw [hl, ok_bind]
    dsimp only [occupant?]
    cases dir.files.get? (fileName name) with
    | none => simp [pure, Except.pure]
    | some entry =>
      cases entry <;>
        simp [pure, Except.pure, throw, throwThe, MonadExceptOf.throw, eq_comm]
  · rw [hl]
    simp [bind, Except.bind]

/-- So this depends on where the directory is and on the folders in it, and on no file. -/
theorem save_eq_error_congr (hl : dir.location = dir'.location)
    (hf : ∀ name, dir.files.get? name = some .folder ↔ dir'.files.get? name = some .folder)
    {name document : String} (hk : '/' ∉ (fileName name).toList) {e : StorageError} :
    dir.save name document = .error e ↔ dir'.save name document = .error e := by
  rw [save_eq_error_iff hk, save_eq_error_iff hk, locate_congr hl hk, hf]

end Directory

namespace Store

variable {s s' : Store} {d : Database}

theorem refusal_eq_some_iff {e : StorageError} : s.refusal d = some e ↔ s.save d = .error e := by
  unfold refusal
  cases s.save d <;> simp

theorem refusal_eq_none_iff : s.refusal d = none ↔ ∃ s', s.save d = .ok s' := by
  unfold refusal
  cases s.save d <;> simp

/-- Saving one database does not change whether another one is refused. -/
theorem isSome_refusal_of_save (h : s.save d = .ok s') (e : Database) :
    (s'.refusal e).isSome = (s.refusal e).isSome := by
  cases s with
  | memory docs =>
    cases h
    rfl
  | directory dir =>
    obtain ⟨dir', hd, rfl⟩ := map_eq_ok_iff.1 h
    have hs := Directory.sameFolders_save hd
    have hnone : ∀ dir : Directory, (directory dir).refusal e = none ↔
        ∃ p file, dir.locate e.name = .ok (p, file) ∧
          ∀ q, dir.occupant? p file ≠ some (.folder q) := by
      intro dir
      simp [refusal_eq_none_iff, Store.save, map_eq_ok_iff, Directory.save_eq_ok_iff]
    rw [Bool.eq_iff_iff, ← not_iff_not, Option.not_isSome_iff_eq_none,
      Option.not_isSome_iff_eq_none, hnone, hnone]
    simp only [hs.locate_eq_ok_iff, Ne, hs.folders]

/-- Nor why it is, if its name is that of a key. -/
theorem refusal_of_save {e : Database} (hk : s.IsKey (s.keyOf e.name)) (h : s.save d = .ok s') :
    s'.refusal e = s.refusal e := by
  cases s with
  | memory docs =>
    cases h
    rfl
  | directory dir =>
    obtain ⟨dir', hd, rfl⟩ := map_eq_ok_iff.1 h
    have hs := Directory.sameFolders_save hd
    refine Option.ext fun err => ?_
    rw [refusal_eq_some_iff, refusal_eq_some_iff]
    exact (map_eq_error_iff.trans
      (Directory.save_eq_error_congr hs.location hs.isFolder_iff hk)).trans map_eq_error_iff.symm

/-! Where documents go -/

/-- The key under which the document of a name comes to stand, if it is one of the store. -/
def target? : Store → String → Option String
  | memory _, name => some name
  | directory dir, name => dir.target? name

theorem target?_of_save (h : s.save d = .ok s') : s'.target? = s.target? := by
  cases s with
  | memory docs =>
    cases h
    rfl
  | directory dir =>
    obtain ⟨dir', hd, rfl⟩ := map_eq_ok_iff.1 h
    exact (Directory.sameFolders_save hd).target?

theorem keyOf_of_save (h : s.save d = .ok s') : s'.keyOf = s.keyOf ∧ s'.IsKey = s.IsKey := by
  cases s with
  | memory docs =>
    cases h
    exact ⟨rfl, rfl⟩
  | directory dir =>
    obtain ⟨dir', -, rfl⟩ := map_eq_ok_iff.1 h
    exact ⟨rfl, rfl⟩

theorem documentAt?_of_save (h : s.save d = .ok s') (key : String) : s'.documentAt? key =
    if s.target? d.name = some key then some (Document.text d) else s.documentAt? key := by
  cases s with
  | memory docs =>
    cases h
    refine (NameMap.get?_insert docs d.name key _).trans (if_congr ?_ rfl rfl)
    exact eq_comm.trans Option.some_inj.symm
  | directory dir =>
    obtain ⟨dir', hd, rfl⟩ := map_eq_ok_iff.1 h
    obtain ⟨p, file, hl, -, rfl⟩ := Directory.save_eq_ok_iff.1 hd
    have ht : (directory dir).target? d.name = some key ↔
        (p = .inside ∧ file = key) ∧ Directory.isDocumentName key = true := by
      refine Directory.target?_eq_some_iff.trans (and_congr_left fun _ => ?_)
      rw [hl, Except.ok.injEq, Prod.mk.injEq]
    rw [documentAt?_put, if_congr ht rfl rfl]

theorem eq_keyOf_of_target? {name key : String} (hk : s.IsKey (s.keyOf name))
    (h : s.target? name = some key) : key = s.keyOf name := by
  cases s with
  | memory docs => exact (Option.some.inj h).symm
  | directory dir =>
    obtain ⟨hl, -⟩ := Directory.target?_eq_some_iff.1 h
    rcases dir.locate_cases hk with hl' | ⟨e, -, hl'⟩
    · cases hl'.symm.trans hl
      rfl
    · cases hl'.symm.trans hl

theorem target?_of_refusal (hk : s.IsKey (s.keyOf d.name)) (hn : d.name ≠ "")
    (h : s.refusal d = none) : s.target? d.name = some (s.keyOf d.name) := by
  cases s with
  | memory docs => rfl
  | directory dir =>
    obtain ⟨s', hs⟩ := refusal_eq_none_iff.1 h
    obtain ⟨dir', hd, -⟩ := map_eq_ok_iff.1 hs
    obtain ⟨p, file, hl, -, -⟩ := Directory.save_eq_ok_iff.1 hd
    rcases dir.locate_cases hk with hl' | ⟨e, -, hl'⟩
    · exact Directory.target?_eq_some_iff.2 ⟨hl', Directory.isDocumentName_fileName hn⟩
    · cases hl.symm.trans hl'

/-- Of some databases with why each is refused, if it is, the last that is not refused and whose
document goes under the key. -/
def placed (s : Store) (attempts : List (Database × Option StorageError)) (key : String) :
    Option Database :=
  ((attempts.filter fun a => a.2.isNone && s.target? a.1.name == some key).getLast?).map Prod.fst

theorem placed_cons (s : Store) (a : Database × Option StorageError)
    (attempts : List (Database × Option StorageError)) (key : String) :
    s.placed (a :: attempts) key = (s.placed attempts key).or
      (if a.2 = none ∧ s.target? a.1.name = some key then some a.1 else none) := by
  unfold placed
  rw [List.filter_cons]
  by_cases h : a.2 = none ∧ s.target? a.1.name = some key
  · have hb : (a.2.isNone && s.target? a.1.name == some key) = true := by simp [h.1, h.2]
    rw [if_pos h, if_pos hb, List.getLast?_cons]
    cases (attempts.filter fun a => a.2.isNone && s.target? a.1.name == some key).getLast? <;> rfl
  · have hb : ¬(a.2.isNone && s.target? a.1.name == some key) = true := by
      simpa using h
    rw [if_neg h, if_neg hb, Option.or_none]

variable {attempts : List (Database × Option StorageError)} {key : String}

theorem mem_of_placed (h : s.placed attempts key = some d) :
    (d, none) ∈ attempts ∧ s.target? d.name = some key := by
  obtain ⟨⟨d, o⟩, hl, rfl⟩ := Option.map_eq_some_iff.1 h
  obtain ⟨hm, hf⟩ := List.mem_filter.1 (List.mem_of_getLast? hl)
  simp only [Bool.and_eq_true, Option.isNone_iff_eq_none, beq_iff_eq] at hf
  obtain ⟨rfl, ht⟩ := hf
  exact ⟨hm, ht⟩

theorem exists_placed (hm : (d, none) ∈ attempts) (ht : s.target? d.name = some key) :
    ∃ e, s.placed attempts key = some e := by
  have hne : (attempts.filter fun a => a.2.isNone && s.target? a.1.name == some key) ≠ [] :=
    List.ne_nil_of_mem (List.mem_filter.2 ⟨hm, by simp [ht]⟩)
  exact ⟨_, congrArg (Option.map Prod.fst) (List.getLast?_eq_getLast_of_ne_nil hne)⟩

end Store

namespace Storage

variable {st : Storage} {d : Database} {ds : List Database}

/-- Why a storage refuses to save a database, if it does. -/
def refusal (st : Storage) (d : Database) : Option StorageError :=
  (st.faults.save d.name).or (st.store.refusal d)

/-- Some databases, each with why it is refused, if it is, when they are saved one after the
other. -/
def attempts : Storage → List Database → List (Database × Option StorageError)
  | _, [] => []
  | st, d :: ds => (d, st.refusal d) :: (st.save d).1.attempts ds

def record (a : Database × Option StorageError) : CallRecord := ⟨.save a.1.name, a.2.isSome⟩

/-- The answer to some saves that are made whether or not others are refused. -/
def lastRefusal (attempts : List (Database × Option StorageError)) : Except Error Unit :=
  match (attempts.filterMap Prod.snd).getLast? with
  | none => .ok ()
  | some e => .error (.ofStorage e)

/-! One save -/

theorem refusal_eq_some_iff {e : StorageError} : st.refusal d = some e ↔ st.saved d = .error e := by
  unfold refusal saved
  cases st.faults.save d.name with
  | some e' => simp
  | none => exact Store.refusal_eq_some_iff

theorem refusal_eq_none_iff : st.refusal d = none ↔ ∃ store, st.saved d = .ok store := by
  unfold refusal saved
  cases st.faults.save d.name with
  | some e => simp
  | none => exact Store.refusal_eq_none_iff

theorem save_of_refusal {e : StorageError} (h : st.refusal d = some e) :
    st.save d = ({ st with calls := st.calls ++ [record (d, st.refusal d)] },
      .error (.ofStorage e)) := by
  rw [save_eq_settle, refusal_eq_some_iff.1 h, h]
  rfl

theorem save_of_refusal_none (h : st.refusal d = none) :
    ∃ store, st.store.save d = .ok store ∧
      st.save d = ({ st with store := store, calls := st.calls ++ [record (d, st.refusal d)] },
        .ok ()) := by
  obtain ⟨store, hs⟩ := refusal_eq_none_iff.1 h
  refine ⟨store, saved_eq_ok hs, ?_⟩
  rw [save_eq_settle, hs, h]
  rfl

theorem calls_save (st : Storage) (d : Database) :
    (st.save d).1.calls = st.calls ++ [record (d, st.refusal d)] := by
  cases h : st.refusal d with
  | some e => rw [save_of_refusal h, h]
  | none =>
    obtain ⟨store, -, hs⟩ := save_of_refusal_none h
    rw [hs, h]

/-- The store is as it was or takes the document. -/
theorem store_save (st : Storage) (d : Database) :
    (st.save d).1.store = st.store ∨ st.store.save d = .ok (st.save d).1.store := by
  cases h : st.refusal d with
  | some e =>
    rw [save_of_refusal h]
    exact .inl rfl
  | none =>
    obtain ⟨store, hs, hst⟩ := save_of_refusal_none h
    rw [hst]
    exact .inr hs

theorem faults_save (st : Storage) (d : Database) : (st.save d).1.faults = st.faults := by
  rw [save_eq_settle]
  cases st.saved d <;> rfl

theorem refusal_save {e : Database} (hk : st.store.IsKey (st.store.keyOf e.name)) (d : Database) :
    (st.save d).1.refusal e = st.refusal e := by
  rw [refusal, refusal, faults_save]
  rcases st.store_save d with h | h
  · rw [h]
  · rw [Store.refusal_of_save hk h]

theorem isSome_refusal_save (st : Storage) (d e : Database) :
    ((st.save d).1.refusal e).isSome = (st.refusal e).isSome := by
  rw [refusal, refusal, faults_save, Option.isSome_or, Option.isSome_or]
  rcases st.store_save d with h | h
  · rw [h]
  · rw [Store.isSome_refusal_of_save h]

theorem target?_save (st : Storage) (d : Database) :
    (st.save d).1.store.target? = st.store.target? := by
  rcases st.store_save d with h | h
  · rw [h]
  · exact Store.target?_of_save h

theorem documentAt?_save (st : Storage) (d : Database) (key : String) :
    (st.save d).1.store.documentAt? key =
      if st.refusal d = none ∧ st.store.target? d.name = some key then some (Document.text d)
      else st.store.documentAt? key := by
  cases h : st.refusal d with
  | some e => rw [save_of_refusal h, if_neg (by simp)]
  | none =>
    obtain ⟨store, hs, hst⟩ := save_of_refusal_none h
    rw [hst, Store.documentAt?_of_save hs]
    exact if_congr (and_iff_right rfl).symm rfl rfl

/-! One save after the other -/

theorem map_name_attempts (st : Storage) (ds : List Database) :
    ((st.attempts ds).map fun a => a.1.name) = ds.map Database.name := by
  induction ds generalizing st with
  | nil => rfl
  | cons d ds ih => rw [attempts, List.map_cons, List.map_cons, ih]

theorem calls_foldl_flushOne (ds : List Database) (r : Storage × Except Error Unit) :
    (ds.foldl Session.flushOne r).1.calls = r.1.calls ++ (r.1.attempts ds).map record := by
  induction ds generalizing r with
  | nil => exact (List.append_nil _).symm
  | cons d ds ih =>
    rw [List.foldl_cons, ih, Session.flushOne_fst, calls_save, attempts, List.map_cons,
      List.append_assoc]
    rfl

theorem lastRefusal_cons (a : Database × Option StorageError)
    (rest : List (Database × Option StorageError)) :
    lastRefusal (a :: rest) =
      match lastRefusal rest with
      | .error e => .error e
      | .ok () => lastRefusal [a] := by
  obtain ⟨d, o⟩ := a
  unfold lastRefusal
  cases o with
  | none => cases h : (rest.filterMap Prod.snd).getLast? <;> simp [h]
  | some e => cases h : (rest.filterMap Prod.snd).getLast? <;> simp [h, List.getLast?_cons]

/-- A refusal is not lost over later saves that go through. -/
theorem foldl_flushOne_snd (ds : List Database) (r : Storage × Except Error Unit) :
    (ds.foldl Session.flushOne r).2 =
      match lastRefusal (r.1.attempts ds) with
      | .error e => .error e
      | .ok () => r.2 := by
  induction ds generalizing r with
  | nil => rfl
  | cons d ds ih =>
    rw [List.foldl_cons, ih, attempts, lastRefusal_cons, Session.flushOne_fst]
    cases lastRefusal ((r.1.save d).1.attempts ds) with
    | error e => rfl
    | ok _ =>
      dsimp only
      rw [Session.flushOne_snd]
      cases h : r.1.refusal d with
      | some e => rw [save_of_refusal h]; rfl
      | none =>
        obtain ⟨store, -, hs⟩ := save_of_refusal_none h
        rw [hs]
        rfl

/-- Whether a database is refused does not depend on the others. -/
theorem map_isSome_attempts (st : Storage) (ds : List Database) :
    ((st.attempts ds).map fun a => (a.1, a.2.isSome)) =
      ds.map fun d => (d, (st.refusal d).isSome) := by
  induction ds generalizing st with
  | nil => rfl
  | cons d ds ih => simp only [attempts, List.map_cons, ih, isSome_refusal_save]

theorem placed_congr {s s' : Store} (h : s'.target? = s.target?) : s'.placed = s.placed := by
  unfold Store.placed
  rw [h]

/-- Under each key is the document that was put there last. -/
theorem documentAt?_foldl_flushOne (ds : List Database) (r : Storage × Except Error Unit)
    (key : String) : (ds.foldl Session.flushOne r).1.store.documentAt? key =
      ((r.1.store.placed (r.1.attempts ds) key).map Document.text).or
        (r.1.store.documentAt? key) := by
  induction ds generalizing r with
  | nil => rfl
  | cons d ds ih =>
    rw [List.foldl_cons, ih, Session.flushOne_fst, placed_congr (target?_save r.1 d),
      documentAt?_save, attempts, Store.placed_cons]
    cases r.1.store.placed ((r.1.save d).1.attempts ds) key with
    | some e => rfl
    | none =>
      dsimp only [Option.map_none, Option.none_or]
      split <;> rfl

theorem keyOf_save (st : Storage) (d : Database) : (st.save d).1.store.keyOf = st.store.keyOf ∧
    (st.save d).1.store.IsKey = st.store.IsKey := by
  rcases st.store_save d with h | h
  · rw [h]
    exact ⟨rfl, rfl⟩
  · exact Store.keyOf_of_save h

/-! Names that are those of keys -/

theorem attempts_of_isKey (hk : ∀ d ∈ ds, st.store.IsKey (st.store.keyOf d.name)) :
    st.attempts ds = ds.map fun d => (d, st.refusal d) := by
  induction ds generalizing st with
  | nil => rfl
  | cons d ds ih =>
    obtain ⟨-, hds⟩ := List.forall_mem_cons.1 hk
    obtain ⟨hkey, hiskey⟩ := keyOf_save st d
    have hr : ∀ e ∈ ds, (e, (st.save d).1.refusal e) = (e, st.refusal e) := fun e he => by
      rw [refusal_save (hds e he)]
    rw [attempts, List.map_cons, ih (fun e he => ?_), List.map_congr_left hr]
    rw [hkey, hiskey]
    exact hds e he

/-- The documents of the databases that are not refused are what is in memory, and no others have
changed. -/
structure Saves (st : Storage) (ds : List Database) (st' : Storage) : Prop where
  saved : ∀ d ∈ ds, st.refusal d = none →
    st'.store.documentAt? (st.store.keyOf d.name) = some (Document.text d)
  others : ∀ key, (∀ d ∈ ds, st.refusal d = none → key ≠ st.store.keyOf d.name) →
    st'.store.documentAt? key = st.store.documentAt? key

/-- No database takes the place of another when all names are those of keys. -/
theorem saves_foldl_flushOne (hk : ∀ d ∈ ds, st.store.IsKey (st.store.keyOf d.name))
    (hn : ∀ d ∈ ds, d.name ≠ "") (hd : (ds.map Database.name).Nodup) (o : Except Error Unit) :
    st.Saves ds (ds.foldl Session.flushOne (st, o)).1 := by
  have hmem : ∀ {e}, (e, none) ∈ st.attempts ds ↔ e ∈ ds ∧ st.refusal e = none := by
    intro e
    rw [attempts_of_isKey hk]
    simp
  refine ⟨fun d hm hr => ?_, fun key hkey => ?_⟩
  · have ht := Store.target?_of_refusal (hk d hm) (hn d hm) (Option.or_eq_none_iff.1 hr).2
    obtain ⟨e, he⟩ := Store.exists_placed (hmem.2 ⟨hm, hr⟩) ht
    obtain ⟨hem, het⟩ := Store.mem_of_placed he
    have hkey := Store.eq_keyOf_of_target? (hk e (hmem.1 hem).1) het
    obtain rfl := List.inj_on_of_nodup_map hd hm (hmem.1 hem).1 (st.store.keyOf_injective hkey)
    rw [documentAt?_foldl_flushOne, he]
    rfl
  · have hnone : st.store.placed (st.attempts ds) key = none := by
      refine Option.eq_none_iff_forall_ne_some.2 fun e he => ?_
      obtain ⟨hem, het⟩ := Store.mem_of_placed he
      obtain ⟨hm, hr⟩ := hmem.1 hem
      exact hkey e hm hr (Store.eq_keyOf_of_target? (hk e hm) het)
    rw [documentAt?_foldl_flushOne, hnone]
    rfl

/-- Storing everything succeeds just when nothing is refused. -/
theorem lastRefusal_eq_ok_iff {attempts : List (Database × Option StorageError)} :
    lastRefusal attempts = .ok () ↔ ∀ a ∈ attempts, a.2 = none := by
  have hf : lastRefusal attempts = .ok () ↔ attempts.filterMap Prod.snd = [] := by
    unfold lastRefusal
    rw [← List.getLast?_eq_none_iff]
    cases (attempts.filterMap Prod.snd).getLast? <;> simp
  rw [hf, List.filterMap_eq_nil_iff]

end Storage

namespace Session

variable {s : Session}

/-- The databases of a catalog are in the order of their names. -/
theorem map_name_values {dbs : NameMap Database}
    (hn : ∀ name d, dbs.get? name = some d → d.name = name) :
    dbs.values.map Database.name = dbs.keys := by
  rw [NameMap.values, NameMap.keys, List.map_map]
  exact List.map_congr_left fun e he => hn e.1 e.2 (NameMap.get?_eq_some_iff_mem.2 he)

theorem flush_snd (s : Session) : s.flush.2 =
    Storage.lastRefusal (s.storage.attempts s.catalog.databases.values) := by
  refine (Storage.foldl_flushOne_snd _ (s.storage, .ok ())).trans ?_
  cases Storage.lastRefusal (s.storage.attempts s.catalog.databases.values) <;> rfl

/-- Storing everything leaves the catalog as it is and saves each database once, in the order of the
bytes of the names; which of them are refused does not depend on the others. It succeeds just when
no save is refused, and else answers with the refusal that was the last. Afterwards the document
under a key is that of the last database that was not refused and belongs there, and what it was if
there is none. Where every name is that of a key, as all names are in memory, no save has to do with
another: the documents of the databases that are not refused are what is in memory, and no other
document has changed. -/
theorem flush_exact
    (hn : ∀ name d, s.catalog.databases.get? name = some d → d.name = name ∧ IsProper name) :
    let ds := s.catalog.databases.values
    let attempts := s.storage.attempts ds
    let after := s.flush.1
    (attempts.map fun a => a.1.name) = s.catalog.names ∧
    (s.catalog.names.map Text.bytes).Pairwise (· < ·) ∧
    Connection.shutdown s = (.closed after.storage, s.flush.2) ∧
    after.catalog = s.catalog ∧
    after.storage.calls = s.storage.calls ++ attempts.map Storage.record ∧
    s.flush.2 = Storage.lastRefusal attempts ∧
    (s.flush.2 = .ok () ↔ ∀ a ∈ attempts, a.2 = none) ∧
    (attempts.map fun a => (a.1, a.2.isSome)) =
      ds.map (fun d => (d, (s.storage.refusal d).isSome)) ∧
    (∀ key, after.storage.store.documentAt? key =
      ((s.storage.store.placed attempts key).map Document.text).or
        (s.storage.store.documentAt? key)) ∧
    ((∀ d ∈ ds, s.storage.store.IsKey (s.storage.store.keyOf d.name)) →
      attempts = ds.map (fun d => (d, s.storage.refusal d)) ∧
      s.storage.Saves ds after.storage) := by
  dsimp only
  have hnames : s.catalog.databases.values.map Database.name = s.catalog.names :=
    map_name_values fun name d hd => (hn name d hd).1
  have hne : ∀ d ∈ s.catalog.databases.values, d.name ≠ "" := by
    intro d hd
    obtain ⟨⟨name, d⟩, hm, rfl⟩ := List.mem_map.1 hd
    obtain ⟨rfl, hp⟩ := hn name d (NameMap.get?_eq_some_iff_mem.2 hm)
    exact hp.1
  refine ⟨?_, ?_, rfl, rfl, Storage.calls_foldl_flushOne _ _, flush_snd s, ?_,
    Storage.map_isSome_attempts _ _, Storage.documentAt?_foldl_flushOne _ (s.storage, .ok ()),
    fun hk => ⟨?_, ?_⟩⟩
  · exact (Storage.map_name_attempts s.storage _).trans hnames
  · exact List.pairwise_map.2 (s.catalog.databases.sorted.imp Text.bytes_lt_bytes_iff.2)
  · rw [flush_snd, Storage.lastRefusal_eq_ok_iff]
  · exact Storage.attempts_of_isKey hk
  · refine Storage.saves_foldl_flushOne hk hne ?_ _
    rw [hnames]
    exact s.catalog.databases.nodup_keys

/-- Three databases of which two are refused, on a storage with a document that cannot be read. -/
def refusing : Session where
  catalog := .ofDatabases [⟨"b", []⟩, ⟨"c", []⟩, ⟨"a", []⟩]
  storage :=
    { store := .memory (.ofList [("z", "not a database")])
      faults := { save := fun name => if name = "c" then none else some (.refused name) } }

theorem flush_exact_refusing :
    (∀ name d, refusing.catalog.databases.get? name = some d → d.name = name ∧ IsProper name) ∧
    refusing.flush.1.storage.calls =
      [⟨.save "a", true⟩, ⟨.save "b", true⟩, ⟨.save "c", false⟩] ∧
    refusing.flush.2 = .error (.ofStorage (.refused "b")) ∧
    refusing.flush.1.storage.store.documentAt? "c" = some (Document.text ⟨"c", []⟩) ∧
    refusing.flush.1.storage.store.documentAt? "z" = some "not a database" := by
  have hn : ∀ name d, refusing.catalog.databases.get? name = some d →
      d.name = name ∧ IsProper name := by
    intro name d hd
    have hm := NameMap.get?_eq_some_iff_mem.1 hd
    have he : refusing.catalog.databases.entries =
        [("a", ⟨"a", []⟩), ("b", ⟨"b", []⟩), ("c", ⟨"c", []⟩)] := rfl
    rw [he] at hm
    simp only [List.mem_cons, Prod.mk.injEq, List.not_mem_nil, or_false] at hm
    rcases hm with ⟨rfl, rfl⟩ | ⟨rfl, rfl⟩ | ⟨rfl, rfl⟩ <;> exact ⟨rfl, by decide, by decide⟩
  obtain ⟨-, -, -, -, hcalls, hlast, -, -, -, hkeys⟩ := flush_exact hn
  obtain ⟨-, hsaves⟩ := hkeys fun _ _ => trivial
  refine ⟨hn, hcalls, hlast, ?_, ?_⟩
  · exact hsaves.saved ⟨"c", []⟩ (by decide) rfl
  · refine hsaves.others "z" fun d hd _ hz => ?_
    have hmem : ∀ d ∈ refusing.catalog.databases.values, "z" ≠ d.name := by decide
    exact hmem d hd hz

/-- Two documents of databases whose names are those of one file. -/
def sharing : Store :=
  .directory (.holding ["data"] (.ofList
    [("b.json", .file (.text (Document.text ⟨"./b", []⟩))),
      ("c.json", .file (.text (Document.text ⟨"b", []⟩)))]))

/-- Nothing is refused, and still one of the databases is not stored and is gone with the session:
its file is that of the other one. -/
theorem flush_sharing :
    ∃ s, Session.open { store := sharing } = .ok s ∧ s.catalog.names = ["./b", "b"] ∧
      (∀ d ∈ s.catalog.databases.values, s.storage.refusal d = none) ∧
      s.flush.2 = .ok () ∧ s.catalog.databases.get? "./b" = some ⟨"./b", []⟩ ∧
      Document.text ⟨"./b", []⟩ ∉ s.flush.1.storage.store.documents ∧
      (Session.open s.flush.1.storage).map (·.catalog.names) = .ok ["b"] := by
  refine ⟨_, rfl, ?_, ?_, ?_, ?_, ?_, ?_⟩
  all_goals decide +kernel

end Session

end TableStore

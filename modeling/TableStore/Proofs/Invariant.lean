import TableStore.Proofs.Atomicity

/-!
# Invariants of runs

A property of sessions that every call preserves, with one of storages for when no session is open,
holds in all states that runs come to. For a relation of the databases in memory to the storage it
is enough that the two ways in which they change together preserve it.
-/
namespace TableStore

namespace Session

/-- What saving any one of some databases preserves, saving them one after the other does. -/
theorem foldl_flushOne_preserves {Q : Storage → Prop} {ds : List Database}
    (hq : ∀ d ∈ ds, ∀ st, Q st → Q (st.save d).1) {r : Storage × Except Error Unit} (h : Q r.1) :
    Q (ds.foldl flushOne r).1 := by
  induction ds generalizing r with
  | nil => exact h
  | cons d ds ih =>
    rw [List.forall_mem_cons] at hq
    refine ih hq.2 ?_
    rw [flushOne_fst]
    exact hq.1 r.1 h

theorem flush_preserves {s : Session} (hc : s.catalog.WellFormed) {Q : Storage → Prop}
    (hq : ∀ d, s.catalog.databases.get? d.name = some d → d.WellFormed → ∀ st, Q st →
      Q (st.save d).1) (h : Q s.storage) : Q s.flush.1.storage := by
  refine foldl_flushOne_preserves (fun d hd => ?_) h
  obtain ⟨hg, hw⟩ := hc.of_mem_values hd
  exact hq d hg hw

/-- Databases are put and saved, or dropped and removed, and neither leads out of the relation. -/
structure Invariant (R : NameMap Database → Storage → Prop) : Prop where
  setFaults : ∀ {dbs st}, R dbs st → ∀ faults, R dbs { st with faults := faults }
  save : ∀ {dbs st} {d : Database}, R dbs st → d.WellFormed →
    (Catalog.isFitName d.name = true ∨ ∃ e, dbs.get? d.name = some e) →
    R (dbs.insert d.name d) (st.save d).1
  remove : ∀ {dbs st name}, R dbs st → (∃ d, dbs.get? name = some d) →
    R (dbs.erase name) (st.remove name).1

namespace Invariant

variable {R : NameMap Database → Storage → Prop} {s : Session}

theorem commit (h : Invariant R) (hr : R s.catalog.databases s.storage) {c : Catalog}
    {call : Option StorageCall} (hm : s.catalog.Moves c call) (answer : Reply) :
    R (s.commit ⟨c, call, answer⟩).1.catalog.databases (s.commit ⟨c, call, answer⟩).1.storage := by
  cases hm with
  | stay => exact hr
  | select _ => exact hr
  | put hd hn =>
    rw [commit_put]
    exact h.save hr hd hn
  | drop hd =>
    rw [commit_remove]
    exact h.remove hr hd

theorem execute (h : Invariant R) (hc : s.catalog.WellFormed)
    (hr : R s.catalog.databases s.storage) (text : String) :
    R (s.execute text).1.catalog.databases (s.execute text).1.storage := by
  rcases execute_cases hc text with ⟨e, -, he⟩ | ⟨c, call, answer, hm, he⟩
  · rw [he]
    exact hr
  · rw [he]
    exact h.commit hr hm answer

/-- What is in memory already is put there again. -/
theorem flush (h : Invariant R) (hc : s.catalog.WellFormed)
    (hr : R s.catalog.databases s.storage) : R s.catalog.databases s.flush.1.storage := by
  refine flush_preserves hc (fun d hg hw st hst => ?_) hr
  have hs := h.save hst hw (.inr ⟨d, hg⟩)
  rwa [NameMap.insert_of_get? hg] at hs

theorem act (h : Invariant R) (hc : s.catalog.WellFormed) (hr : R s.catalog.databases s.storage)
    (a : Action) : R (s.act a).catalog.databases (s.act a).storage := by
  rcases act_cases s a with ha | ⟨text, ha⟩ | ha
  · rw [ha]
    exact hr
  · rw [ha]
    exact h.execute hc hr text
  · rw [ha]
    exact h.flush hc hr

theorem run (h : Invariant R) (hc : s.catalog.WellFormed) (hr : R s.catalog.databases s.storage)
    (steps : List (Faults × Action)) :
    (s.run steps).catalog.WellFormed ∧ R (s.run steps).catalog.databases (s.run steps).storage := by
  induction steps generalizing s with
  | nil => exact ⟨hc, hr⟩
  | cons x steps ih =>
    have hf : R (s.setFaults x.1).catalog.databases (s.setFaults x.1).storage :=
      h.setFaults hr x.1
    have hc' : (s.setFaults x.1).catalog.WellFormed := hc
    exact ih (wellFormed_act hc' x.2) (h.act hc' hf x.2)

end Invariant

theorem reader_settle (st : Storage) (call : StorageCall) (outcome : Except StorageError Store) :
    (st.settle call outcome).1.reader = st.reader := by
  cases outcome <;> rfl

theorem invariant_reader (reader : NumeralReader) : Invariant fun _ st => st.reader = reader where
  setFaults h _ := h
  save h _ _ := (reader_settle _ _ _).trans h
  remove h _ := (reader_settle _ _ _).trans h

theorem reader_run {s : Session} (hc : s.catalog.WellFormed) (steps : List (Faults × Action)) :
    (s.run steps).storage.reader = s.storage.reader :=
  ((invariant_reader s.storage.reader).run hc rfl steps).2

end Session

namespace Connection

variable {P : Session → Prop} {Q : Storage → Prop}

/-- No call leads out of the two properties, whatever the storage refuses. -/
structure Invariant (P : Session → Prop) (Q : Storage → Prop) : Prop where
  setFaults : ∀ {s}, P s → ∀ faults, P (s.setFaults faults)
  execute : ∀ {s}, P s → ∀ text, P (s.execute text).1
  flush : ∀ {s}, P s → P s.flush.1
  storage : ∀ {s}, P s → Q s.storage
  storageFaults : ∀ {st : Storage}, Q st → ∀ faults, Q { st with faults := faults }
  «open» : ∀ {st s}, Q st → Session.open st = .ok s → P s

def Satisfies (P : Session → Prop) (Q : Storage → Prop) : Connection → Prop
  | opened s => P s
  | closed st => Q st

namespace Invariant

variable {c : Connection}

theorem setFaults_satisfies (h : Invariant P Q) (hc : c.Satisfies P Q) (faults : Faults) :
    (c.setFaults faults).Satisfies P Q := by
  cases c with
  | opened s => exact h.setFaults hc faults
  | closed st => exact h.storageFaults hc faults

theorem storage_satisfies (h : Invariant P Q) (hc : c.Satisfies P Q) : Q c.storage := by
  cases c with
  | opened s => exact h.storage hc
  | closed st => exact hc

theorem reopen (h : Invariant P Q) (hc : c.Satisfies P Q) : c.reopen.1.Satisfies P Q := by
  unfold Connection.reopen
  split
  · rename_i ho
    exact h.open (h.storage_satisfies hc) ho
  · exact h.storage_satisfies hc

theorem act (h : Invariant P Q) (hc : c.Satisfies P Q) (a : Action) : (c.act a).Satisfies P Q := by
  cases a with
  | session a =>
    cases c with
    | opened s =>
      rcases Session.act_cases s a with ha | ⟨text, ha⟩ | ha
      · exact (congrArg P ha).mpr hc
      · exact (congrArg P ha).mpr (h.execute hc text)
      · exact (congrArg P ha).mpr (h.flush hc)
    | closed st => exact hc
  | shutdown =>
    cases c with
    | opened s => exact h.storage (h.flush hc)
    | closed st => exact hc
  | reopen =>
    have hr := h.reopen hc
    cases c <;> exact hr

theorem run (h : Invariant P Q) (hc : c.Satisfies P Q) (steps : List (Faults × Action)) :
    (c.run steps).Satisfies P Q := by
  induction steps generalizing c with
  | nil => exact hc
  | cons x steps ih => exact ih (h.act (h.setFaults_satisfies hc x.1) x.2)

/-- The property holds of every session that runs come to from a storage that has its own. -/
theorem of_reaches (h : Invariant P Q) {storage : Storage} (hs : Q storage) {s : Session}
    (hr : Reaches storage s) : P s := by
  obtain ⟨steps, hr⟩ := hr
  have hc := h.run (c := .closed storage) hs steps
  rwa [hr] at hc

end Invariant

end Connection

end TableStore

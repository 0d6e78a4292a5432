import TableStore.Proofs.Run

/-!
# Atomicity

A statement that fails has done nothing, unless it is its storage call that failed. The exits that
come after a change in memory are never taken in a state that a run comes to.
-/
namespace TableStore

theorem Storage.settle_error {s : Storage} {call : StorageCall}
    {outcome : Except StorageError Store} {e : Error} (h : (s.settle call outcome).2 = .error e) :
    (∃ e', e = .ofStorage e') ∧
      (s.settle call outcome).1 = { s with calls := s.calls ++ [⟨call, true⟩] } := by
  unfold settle at h ⊢
  cases outcome with
  | ok store => cases h
  | error e' =>
    cases h
    exact ⟨⟨e', rfl⟩, rfl⟩

theorem Storage.calls_settle (st : Storage) (call : StorageCall)
    (outcome : Except StorageError Store) : (st.settle call outcome).1.calls.map CallRecord.call =
      st.calls.map CallRecord.call ++ [call] := by
  cases outcome <;> simp [settle]

namespace Session

/-- What is put is there to be saved. -/
theorem commit_put {α : Type} (s : Session) (d : Database) (answer : α) :
    s.commit ⟨s.catalog.put d, some (.save d.name), answer⟩ =
      (⟨s.catalog.put d, (s.storage.save d).1⟩, (s.storage.save d).2.map fun _ => answer) := by
  have hd : (s.catalog.put d).database d.name = .ok d := by
    rw [Catalog.database, Catalog.put, NameMap.get?_insert_self]
  unfold commit
  dsimp only [call, save]
  rw [hd]
  rfl

theorem commit_remove {α : Type} (s : Session) (c : Catalog) (name : String) (answer : α) :
    s.commit ⟨c, some (.remove name), answer⟩ =
      (⟨c, (s.storage.remove name).1⟩, (s.storage.remove name).2.map fun _ => answer) := rfl

theorem flushOne_fst (r : Storage × Except Error Unit) (d : Database) :
    (flushOne r d).1 = (r.1.save d).1 := by
  unfold flushOne
  split <;> simp_all

/-- Once a move is made only its storage call can fail, and that is on record. -/
theorem commit_error {s : Session} {c : Catalog} {call : Option StorageCall}
    (hm : s.catalog.Moves c call) {answer : Reply} {e : Error}
    (h : (s.commit ⟨c, call, answer⟩).2 = .error e) :
    ∃ k e', call = some k ∧ e = .ofStorage e' ∧ (s.commit ⟨c, call, answer⟩).1 =
      ⟨c, { s.storage with calls := s.storage.calls ++ [⟨k, true⟩] }⟩ := by
  cases hm with
  | stay => cases h
  | select _ => cases h
  | @put d _ _ =>
    rw [commit_put] at h ⊢
    obtain ⟨⟨e', rfl⟩, hs⟩ := Storage.settle_error (map_eq_error_iff.1 h)
    exact ⟨_, e', rfl, rfl, congrArg (Session.mk _) hs⟩
  | drop _ =>
    rw [commit_remove] at h ⊢
    obtain ⟨⟨e', rfl⟩, hs⟩ := Storage.settle_error (map_eq_error_iff.1 h)
    exact ⟨_, e', rfl, rfl, congrArg (Session.mk _) hs⟩

/-- A statement that fails is at fault itself and has done nothing, or its storage call failed. -/
theorem execute_error {s : Session} (hc : s.catalog.WellFormed) {text : String} {e : Error}
    (h : (s.execute text).2 = .error e) :
    e.IsOfStatement ∧ (s.execute text).1 = s ∨
    ∃ e' call c, e = .ofStorage e' ∧ (s.execute text).1 =
      ⟨c, { s.storage with calls := s.storage.calls ++ [⟨call, true⟩] }⟩ := by
  rcases execute_cases hc text with ⟨e', he', hr⟩ | ⟨c, call, answer, hm, hr⟩
  · rw [hr] at h ⊢
    cases h
    exact .inl ⟨he', rfl⟩
  · rw [hr] at h ⊢
    obtain ⟨k, e', rfl, rfl, hs⟩ := commit_error hm h
    exact .inr ⟨e', k, c, rfl, hs⟩

theorem execute_eq_self {s : Session} (hc : s.catalog.WellFormed) {text : String} {e : Error}
    (h : (s.execute text).2 = .error e) (he : ∀ e', e ≠ .ofStorage e') :
    e.IsOfStatement ∧ (s.execute text).1 = s := by
  rcases execute_error hc h with hs | ⟨e', _, _, hs, -⟩
  · exact hs
  · exact absurd hs (he e')

end Session

theorem Catalog.Moves.database_save {c c' : Catalog} {name : String}
    (h : c.Moves c' (some (.save name))) : ∃ d, c'.database name = .ok d := by
  cases h with
  | @put d _ _ => exact ⟨d, by rw [database, Catalog.put, NameMap.get?_insert_self]⟩

namespace Connection

/-- In every state that a run comes to: a statement that fails with a fault of its own has changed
nothing and called on no storage; it fails with an error of the storage only when its one call was
refused; and it fails in no other way. Once it has begun to change the catalog it goes through to
its reply, and what it is to save is there. -/
theorem execute_atomic {storage : Storage} {s : Session} (hs : Reaches storage s) (text : String) :
    (∀ e, (s.execute text).2 = .error (.ofSyntax e) → (s.execute text).1 = s) ∧
    (∀ e, (s.execute text).2 = .error (.ofValidation e) → (s.execute text).1 = s) ∧
    (∀ e, (s.execute text).2 = .error (.ofConversion e) → (s.execute text).1 = s) ∧
    (∀ e, (s.execute text).2 = .error (.ofStorage e) →
      (s.execute text).1.storage.store = s.storage.store ∧
      ∃ call, (s.execute text).1.storage.calls = s.storage.calls ++ [⟨call, true⟩]) ∧
    (s.execute text).2 ≠ .error .noDocument ∧
    (∀ column, (s.execute text).2 ≠ .error (.ofValidation (.notInRow column))) ∧
    ∀ statement ch, Sql.Statement.parse text = .ok statement → statement.run s.catalog = .ok ch →
      (∃ answer, ch.result = .ok answer) ∧
      ∀ name, ch.call = some (.save name) → ∃ d, ch.catalog.database name = .ok d := by
  have hc := hs.wellFormed
  refine ⟨fun e h => ?_, fun e h => ?_, fun e h => ?_, fun e h => ?_, fun h => ?_,
    fun column h => ?_, fun statement ch _ hr => ?_⟩
  · exact (Session.execute_eq_self hc h (by simp)).2
  · exact (Session.execute_eq_self hc h (by simp)).2
  · exact (Session.execute_eq_self hc h (by simp)).2
  · rcases Session.execute_error hc h with ⟨he, -⟩ | ⟨_, call, c, -, hs⟩
    · exact he.elim
    · rw [hs]
      exact ⟨rfl, call, rfl⟩
  · exact (Session.execute_eq_self hc h (by simp)).1
  · exact (Session.execute_eq_self hc h (by simp)).1
  · obtain ⟨hm, ha⟩ := Sql.Statement.run_moves hc hr
    refine ⟨ha, fun name hn => ?_⟩
    rw [hn] at hm
    exact hm.database_save

theorem execute_atomic_of_unsavedSteps :
    ∃ s, (closed { store := .memory .empty }).run unsavedSteps = .opened s ∧
      (s.execute "DROP TABLE t;").2 = .error (.ofValidation (.noSuchTable "t" "d")) ∧
      (s.execute "DROP TABLE t;").1 = s :=
  ⟨_, rfl, rfl, (execute_atomic ⟨unsavedSteps, rfl⟩ "DROP TABLE t;").2.1
    (.noSuchTable "t" "d") rfl⟩

end Connection

end TableStore

import TableStore.Proofs.Loading
import TableStore.Proofs.StatementError

/-!
# Runs

A run is any sequence of calls on a connection, each with storage calls of its own choice refused.
In every state of every run, on whatever storage, the catalog is well formed.
-/
namespace TableStore

namespace Session

/-- A call on an open session. -/
inductive Action where
  | execute (text : String)
  | executeLine (line : String)
  | flush

def act (s : Session) : Action → Session
  | .execute text => (s.execute text).1
  | .executeLine line => (s.executeLine line).1
  | .flush => s.flush.1

def setFaults (s : Session) (faults : Faults) : Session :=
  { s with storage := { s.storage with faults := faults } }

/-- The session after some calls, each with the faults of the storage during it. -/
def run (s : Session) (steps : List (Faults × Action)) : Session :=
  steps.foldl (fun s x => (s.setFaults x.1).act x.2) s

theorem catalog_commit {α : Type} (s : Session) (ch : Change α) :
    (s.commit ch).1.catalog = ch.catalog := by
  obtain ⟨catalog, call, result⟩ := ch
  unfold commit
  cases call with
  | none => rfl
  | some call =>
    cases call with
    | save name =>
      dsimp only [Session.call, save]
      split <;> rfl
    | remove name => rfl

/-- A statement is refused with nothing done, or makes one of the moves and is answered unless the
storage refuses. -/
theorem execute_cases {s : Session} (hc : s.catalog.WellFormed) (text : String) :
    (∃ e, e.IsOfStatement ∧ s.execute text = (s, .error e)) ∨
    ∃ c call answer, s.catalog.Moves c call ∧
      s.execute text = s.commit (⟨c, call, answer⟩ : Change Reply) := by
  unfold execute
  split
  · rename_i e _
    exact .inl ⟨.ofSyntax e, trivial, rfl⟩
  · rename_i statement _
    unfold change
    split
    · rename_i e he
      exact .inl ⟨e, Sql.Statement.refuses_run s.catalog statement e he, rfl⟩
    · rename_i ch hr
      obtain ⟨hm, answer, ha⟩ := Sql.Statement.run_moves hc hr
      obtain ⟨c, call, result⟩ := ch
      dsimp only at hm ha
      subst ha
      refine .inr ⟨c, call, answer, hm, ?_⟩
      cases call with
      | none => rfl
      | some call =>
        dsimp only [commit]
        cases (Session.call ⟨c, s.storage⟩ call).2 <;> rfl

theorem wellFormed_execute {s : Session} (hc : s.catalog.WellFormed) (text : String) :
    (s.execute text).1.catalog.WellFormed := by
  rcases execute_cases hc text with ⟨e, -, h⟩ | ⟨c, call, answer, hm, h⟩
  · rw [h]
    exact hc
  · rw [h, catalog_commit]
    exact hm.wellFormed hc

/-- A call comes to nothing, to a statement or to storing everything. -/
theorem act_cases (s : Session) (a : Action) :
    s.act a = s ∨ (∃ text, s.act a = (s.execute text).1) ∨ s.act a = s.flush.1 := by
  cases a with
  | execute text => exact .inr (.inl ⟨text, rfl⟩)
  | executeLine line =>
    rw [act, executeLine]
    split
    · exact .inl rfl
    · exact .inr (.inl ⟨line, rfl⟩)
  | flush => exact .inr (.inr rfl)

theorem wellFormed_act {s : Session} (hc : s.catalog.WellFormed) (a : Action) :
    (s.act a).catalog.WellFormed := by
  rcases act_cases s a with h | ⟨text, h⟩ | h
  · rw [h]
    exact hc
  · rw [h]
    exact wellFormed_execute hc text
  · rw [h]
    exact hc

end Session

namespace Connection

/-- What is so of the session that is open is so of one. -/
theorem opened_of_session? {α : Type} {c : Connection} {f : Session → α} {a : α}
    (h : c.session?.map f = some a) : ∃ s, c = .opened s ∧ f s = a := by
  cases c with
  | opened s => exact ⟨s, rfl, Option.some.inj h⟩
  | closed storage => cases h

/-- A call on a connection. -/
inductive Action where
  | session (a : Session.Action)
  | shutdown
  | reopen

/-- Without an open session there is nothing to do but to open one. -/
def act : Connection → Action → Connection
  | opened s, .session a => .opened (s.act a)
  | opened s, .shutdown => (shutdown s).1
  | closed st, .session _ => .closed st
  | closed st, .shutdown => .closed st
  | c, .reopen => c.reopen.1

/-- The connection after some calls, each with the faults of the storage during it. -/
def run (c : Connection) (steps : List (Faults × Action)) : Connection :=
  steps.foldl (fun c x => (c.setFaults x.1).act x.2) c

/-- The session that is open, if one is, has a well-formed catalog. -/
def WellFormed (c : Connection) : Prop := ∀ s, c.session? = some s → s.catalog.WellFormed

theorem WellFormed.setFaults {c : Connection} (hc : c.WellFormed) (faults : Faults) :
    (c.setFaults faults).WellFormed := by
  intro s hs
  cases c with
  | opened s' =>
    cases hs
    exact hc s' rfl
  | closed st => cases hs

theorem wellFormed_reopen (c : Connection) : c.reopen.1.WellFormed := by
  intro s hs
  unfold reopen at hs
  split at hs
  · rename_i ho
    cases hs
    exact Session.wellFormed_open ho
  · cases hs

theorem WellFormed.act {c : Connection} (hc : c.WellFormed) (a : Action) :
    (c.act a).WellFormed := by
  cases a with
  | session a =>
    cases c with
    | opened s =>
      intro s' hs
      cases hs
      exact Session.wellFormed_act (hc s rfl) a
    | closed st => exact hc
  | shutdown =>
    cases c with
    | opened s =>
      intro s' hs
      cases hs
    | closed st => exact hc
  | reopen =>
    have h := wellFormed_reopen c
    cases c <;> exact h

theorem WellFormed.run {c : Connection} (hc : c.WellFormed) (steps : List (Faults × Action)) :
    (c.run steps).WellFormed := by
  induction steps generalizing c with
  | nil => exact hc
  | cons x steps ih => exact ih ((hc.setFaults x.1).act x.2)

theorem wellFormed_closed (storage : Storage) : (closed storage).WellFormed := by
  intro s hs
  cases hs

/-- The sessions that runs from a storage come to, whatever it holds and refuses. -/
def Reaches (storage : Storage) (s : Session) : Prop :=
  ∃ steps, (closed storage).run steps = .opened s

theorem Reaches.wellFormed {storage : Storage} {s : Session} (h : Reaches storage s) :
    s.catalog.WellFormed := by
  obtain ⟨steps, hs⟩ := h
  refine (wellFormed_closed storage).run steps s ?_
  rw [hs]
  rfl

/-- Every state of every run keeps to the data model, whatever the storage holds at first and
refuses on the way. -/
theorem catalog_wellFormed_of_run (storage : Storage) (steps : List (Faults × Action)) (s : Session)
    (h : (closed storage).run steps = .opened s) : s.catalog.WellFormed :=
  Reaches.wellFormed ⟨steps, h⟩

/-- A database whose first document is refused, which is selected all the same. -/
def unsavedSteps : List (Faults × Action) :=
  [({}, .reopen),
    ({ save := fun _ => some (.refused "no space left") }, .session (.execute "CREATE DATABASE d;")),
    ({}, .session (.executeLine "USE d;"))]

theorem catalog_wellFormed_of_unsavedSteps :
    ∃ s, (closed { store := .memory .empty }).run unsavedSteps = .opened s ∧
      s.catalog.WellFormed ∧ s.catalog.selected = some "d" :=
  ⟨_, rfl, catalog_wellFormed_of_run { store := .memory .empty } unsavedSteps _ rfl, rfl⟩

end Connection

end TableStore

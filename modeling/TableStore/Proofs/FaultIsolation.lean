import TableStore.Proofs.Atomicity

/-!
# Isolation of faults

The catalog alone decides what a request changes, which storage call it makes and what it answers.
The storage decides only whether the answer gets through. So two runs that differ in what the
storage refuses go through the same catalogs and the same calls.
-/
namespace TableStore

namespace Session

/-! Runs with their answers -/

inductive Request where
  | execute (text : String)
  | executeLine (line : String)

def respond (s : Session) : Request → Session × Except Error (Option Reply)
  | .execute text => ((s.execute text).1, (s.execute text).2.map some)
  | .executeLine line => s.executeLine line

/-- A request that was answered: the session before it and after it, and the answer. -/
structure Event where
  before : Session
  after : Session
  answer : Except Error (Option Reply)

def event (s : Session) (r : Request) : Event := ⟨s, (s.respond r).1, (s.respond r).2⟩

/-- What happens in the course of some requests, each with the faults of the storage during it. -/
def trace (s : Session) : List (Faults × Request) → List Event
  | [] => []
  | (faults, r) :: steps =>
    let e := (s.setFaults faults).event r
    e :: e.after.trace steps

namespace Event

/-- The storage calls of the request. -/
def calls (e : Event) : List CallRecord := e.after.storage.calls.drop e.before.storage.calls.length

def Succeeds (e : Event) : Prop := ∀ r ∈ e.calls, r.refused = false

/-- When a call is refused the answer is the error that the storage gave. -/
def Reports (e : Event) : Prop :=
  ∀ r ∈ e.calls, r.refused = true → ∃ err,
    (Session.call ⟨e.after.catalog, e.before.storage⟩ r.call).2 = .error (.ofStorage err) ∧
      e.answer = .error (.ofStorage err)

/-- Two events that no one can tell apart but by the refusal of a call. -/
structure Agrees (e e' : Event) : Prop where
  catalog : e.after.catalog = e'.after.catalog
  calls : e.calls.map CallRecord.call = e'.calls.map CallRecord.call
  answer : e.Succeeds → e'.Succeeds → e.answer = e'.answer
  reports : e.Reports ∧ e'.Reports

/-- The event carries out the change: it makes the call of the change, and gives its answer unless
that call is refused. -/
structure CarriesOut (e : Event) (ch : Change (Except Error (Option Reply))) : Prop where
  catalog : e.after.catalog = ch.catalog
  calls : e.calls.map CallRecord.call = ch.call.toList
  answer : e.Succeeds → e.answer = ch.result
  reports : e.Reports

theorem CarriesOut.agrees {e e' : Event} {ch : Change (Except Error (Option Reply))}
    (h : e.CarriesOut ch) (h' : e'.CarriesOut ch) : e.Agrees e' where
  catalog := h.catalog.trans h'.catalog.symm
  calls := h.calls.trans h'.calls.symm
  answer hs hs' := (h.answer hs).trans (h'.answer hs').symm
  reports := ⟨h.reports, h'.reports⟩

end Event

/-! What a request changes -/

/-- The change that a text makes to a catalog; a text that is refused changes nothing. -/
def planText (c : Catalog) (text : String) : Change (Except Error (Option Reply)) :=
  match Sql.Statement.parse text with
  | .error e => ⟨c, none, .error (.ofSyntax e)⟩
  | .ok statement =>
    match statement.run c with
    | .error e => ⟨c, none, .error e⟩
    | .ok ch => ⟨ch.catalog, ch.call, ch.result.map some⟩

def plan (c : Catalog) : Request → Change (Except Error (Option Reply))
  | .execute text => planText c text
  | .executeLine line => if Sql.isIgnorable line then ⟨c, none, .ok none⟩ else planText c line

theorem commit_map {α β : Type} (s : Session) (ch : Change α) (f : α → β) :
    s.commit ⟨ch.catalog, ch.call, f ch.result⟩ = ((s.commit ch).1, (s.commit ch).2.map f) := by
  obtain ⟨c, call, a⟩ := ch
  cases call with
  | none => rfl
  | some call =>
    dsimp only [commit]
    cases (Session.call ⟨c, s.storage⟩ call).2 <;> rfl

theorem execute_eq_commit (s : Session) (text : String) :
    ((s.execute text).1, (s.execute text).2.map some) =
      ((s.commit (planText s.catalog text)).1, (s.commit (planText s.catalog text)).2.bind id) := by
  unfold execute planText
  cases Sql.Statement.parse text with
  | error e => rfl
  | ok statement =>
    dsimp only [change]
    cases statement.run s.catalog with
    | error e => rfl
    | ok ch =>
      dsimp only
      rw [commit_map]
      cases (s.commit ch).2 <;> rfl

/-- A request is planned on the catalog, and then the plan is committed. -/
theorem respond_eq_commit (s : Session) (r : Request) :
    s.respond r = ((s.commit (plan s.catalog r)).1, (s.commit (plan s.catalog r)).2.bind id) := by
  cases r with
  | execute text => exact execute_eq_commit s text
  | executeLine line =>
    dsimp only [respond, executeLine, plan]
    split
    · rfl
    · exact execute_eq_commit s line

theorem planText_moves {c : Catalog} (hc : c.WellFormed) (text : String) :
    c.Moves (planText c text).catalog (planText c text).call := by
  unfold planText
  split
  · exact .stay
  · split
    · exact .stay
    · rename_i hr
      exact (Sql.Statement.run_moves hc hr).1

theorem plan_moves {c : Catalog} (hc : c.WellFormed) (r : Request) :
    c.Moves (plan c r).catalog (plan c r).call := by
  cases r with
  | execute text => exact planText_moves hc text
  | executeLine line =>
    dsimp only [plan]
    split
    · exact .stay
    · exact planText_moves hc line

/-! Two runs -/

/-- The call of a move is put on record with its outcome. -/
theorem call_of_moves {s : Session} {c : Catalog} {call : StorageCall}
    (hm : s.catalog.Moves c (some call)) :
    ∃ outcome, Session.call ⟨c, s.storage⟩ call =
      (⟨c, (s.storage.settle call outcome).1⟩, (s.storage.settle call outcome).2) := by
  cases hm with
  | @put d _ _ =>
    have hd : (s.catalog.put d).database d.name = .ok d := by
      rw [Catalog.database, Catalog.put, NameMap.get?_insert_self]
    obtain ⟨outcome, ho⟩ : ∃ outcome, s.storage.save d = s.storage.settle (.save d.name) outcome :=
      ⟨_, rfl⟩
    refine ⟨outcome, ?_⟩
    dsimp only [Session.call, save]
    rw [hd, ← ho]
    rfl
  | drop _ => exact ⟨_, rfl⟩

theorem calls_commit {α : Type} {s : Session} {ch : Change α}
    (hm : s.catalog.Moves ch.catalog ch.call) :
    (s.commit ch).1.storage.calls.map CallRecord.call =
      s.storage.calls.map CallRecord.call ++ ch.call.toList := by
  obtain ⟨c, call, a⟩ := ch
  cases call with
  | none => exact (List.append_nil _).symm
  | some call =>
    obtain ⟨outcome, ho⟩ := call_of_moves hm
    have hs : (s.commit ⟨c, some call, a⟩).1.storage = (s.storage.settle call outcome).1 :=
      congrArg (fun r => r.1.storage) ho
    rw [hs]
    exact Storage.calls_settle _ _ _

theorem Event.calls_settle (s : Session) (c : Catalog) (call : StorageCall)
    (outcome : Except StorageError Store) (answer : Except Error (Option Reply)) :
    (⟨s, ⟨c, (s.storage.settle call outcome).1⟩, answer⟩ : Event).calls =
      [⟨call, !outcome.isOk⟩] := by
  cases outcome <;> exact List.drop_left

theorem carriesOut_event {s : Session} (hc : s.catalog.WellFormed) (r : Request) :
    (s.event r).CarriesOut (plan s.catalog r) := by
  have hm := plan_moves hc r
  unfold event
  rw [respond_eq_commit]
  generalize plan s.catalog r = ch at hm
  obtain ⟨c, call, answer⟩ := ch
  cases call with
  | none =>
    change Event.CarriesOut ⟨s, ⟨c, s.storage⟩, answer⟩ ⟨c, none, answer⟩
    have hcalls : (⟨s, ⟨c, s.storage⟩, answer⟩ : Event).calls = [] := List.drop_length
    refine ⟨rfl, congrArg _ hcalls, fun _ => rfl, fun r hr => ?_⟩
    rw [hcalls] at hr
    cases hr
  | some call =>
    obtain ⟨outcome, ho⟩ := call_of_moves hm
    dsimp only [commit]
    rw [ho]
    have hcalls := Event.calls_settle s c call outcome
    refine ⟨rfl, congrArg _ (hcalls _), fun hs => ?_, fun r hr h => ?_⟩
    · cases outcome with
      | ok store => rfl
      | error err => cases hs ⟨call, true⟩ (by rw [hcalls]; exact List.mem_singleton_self _)
    · rw [hcalls] at hr
      obtain rfl := List.mem_singleton.1 hr
      cases outcome with
      | ok store => cases h
      | error err => exact ⟨err, congrArg Prod.snd ho, rfl⟩

theorem agrees_trace {s s' : Session} (hc : s.catalog.WellFormed) (hs : s.catalog = s'.catalog)
    {steps steps' : List (Faults × Request)} (h : steps.map Prod.snd = steps'.map Prod.snd) :
    List.Forall₂ Event.Agrees (s.trace steps) (s'.trace steps') := by
  -- the storages drift apart, so nothing but the catalogs is kept equal along the steps
  induction steps generalizing s s' steps' with
  | nil =>
    rw [List.map_nil, eq_comm, List.map_eq_nil_iff] at h
    subst h
    exact .nil
  | cons x steps ih =>
    obtain ⟨faults, r⟩ := x
    obtain ⟨⟨faults', r'⟩, steps', rfl, hr, ht⟩ := List.map_eq_cons_iff.1 h.symm
    obtain rfl : r' = r := hr
    have he := carriesOut_event (s := s.setFaults faults) hc r'
    have he' := carriesOut_event (s := s'.setFaults faults') (hs ▸ hc) r'
    have hp : (s'.setFaults faults').catalog = (s.setFaults faults).catalog := hs.symm
    rw [hp] at he'
    have ha := he.agrees he'
    refine .cons ha (ih ?_ ha.catalog ht.symm)
    rw [he.catalog]
    exact (plan_moves hc r').wellFormed hc

/-- Two runs of the same requests on a storage, each with calls of its own choice refused, go
through the same catalogs and make the same calls. They answer alike, except that a request whose
call is refused answers with the error of that call. -/
theorem agrees_of_faults {storage : Storage} {s : Session} (ho : Session.open storage = .ok s)
    {steps steps' : List (Faults × Request)} (h : steps.map Prod.snd = steps'.map Prod.snd) :
    List.Forall₂ Event.Agrees (s.trace steps) (s.trace steps') :=
  agrees_trace (wellFormed_open ho) rfl h

def creation : List Request := [.execute "CREATE DATABASE d;", .executeLine "USE d;"]

/-- The faults of a storage that is full. -/
def full : Faults := { save := fun _ => some (.refused "no space left") }

theorem agrees_of_full :
    ∃ s, Session.open { store := .memory .empty } = .ok s ∧
      List.Forall₂ Event.Agrees
        (s.trace (creation.map ({}, ·))) (s.trace (creation.map (full, ·))) ∧
      (s.trace (creation.map ({}, ·))).map Event.answer =
        [.ok (some (.databaseCreated "d")), .ok (some (.databaseSelected "d"))] ∧
      (s.trace (creation.map (full, ·))).map Event.answer =
        [.error (.ofStorage (.refused "no space left")), .ok (some (.databaseSelected "d"))] := by
  have ho : Session.open { store := .memory .empty } =
      .ok ⟨.ofDatabases [], { store := .memory .empty }⟩ := rfl
  exact ⟨_, ho, agrees_of_faults ho rfl, rfl, rfl⟩

end Session

end TableStore

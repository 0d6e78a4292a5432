import TableStore.Proofs.Condition
import TableStore.Proofs.Performing
import TableStore.Proofs.Respelling

/-!
# Letter case in use

Columns are found whatever the case of the letters of their names. So texts that differ only in the
case of letters of ASCII, in keywords, in types and in the columns that they refer to, do the same.
-/
namespace TableStore

open Sql Text

/-! The same outcome -/

inductive ErrorKind where
  | syntactic
  | validation
  | conversion
  | io
  | internal
  deriving DecidableEq

def Error.kind : Error → ErrorKind
  | ofSyntax _ => .syntactic
  | ofValidation _ => .validation
  | ofConversion _ => .conversion
  | ofStorage _ => .io
  | noDocument => .internal

/-- The same result, or errors of one kind. -/
def SameOutcome {α : Type} (x y : Except Error α) : Prop :=
  x.mapError Error.kind = y.mapError Error.kind

namespace SameOutcome

variable {α β : Type} {x y : Except Error α} {f g : α → Except Error β}

theorem refl (x : Except Error α) : SameOutcome x x := Eq.refl _

theorem eq_ok {a : α} (h : SameOutcome (.ok a) y) : y = .ok a := by
  cases y with
  | error e => cases h
  | ok b => exact congrArg Except.ok (Except.ok.inj h).symm

theorem bind (h : SameOutcome x y) (hf : ∀ a, SameOutcome (f a) (g a)) :
    SameOutcome (x >>= f) (y >>= g) := by
  cases x with
  | error e =>
    cases y with
    | error e' => exact congrArg Except.error (Except.error.inj h)
    | ok b => cases h
  | ok a =>
    rw [h.eq_ok]
    exact hf a

theorem map (h : SameOutcome x y) (f : α → β) : SameOutcome (x.map f) (y.map f) := by
  have hb : ∀ z : Except Error α, z.map f = z >>= fun a => .ok (f a) := fun z => by cases z <;> rfl
  rw [hb, hb]
  exact h.bind fun a => refl _

theorem mapM {γ δ : Type} {R : γ → δ → Prop} {f : γ → Except Error β} {g : δ → Except Error β}
    (hf : ∀ a b, R a b → SameOutcome (f a) (g b)) {as : List γ} {bs : List δ}
    (h : List.Forall₂ R as bs) : SameOutcome (as.mapM f) (bs.mapM g) := by
  induction h with
  | nil => exact refl _
  | cons hab _ ih =>
    rw [List.mapM_cons, List.mapM_cons]
    exact (hf _ _ hab).bind fun _ => ih.bind fun _ => refl _

end SameOutcome

/-! Tables -/

theorem Sql.Literal.Recased.eq {l l' : Literal} (h : l.Recased Eq l') : l = l' := by
  cases h with
  | null => rfl
  | text h => rw [h]

theorem Sql.ColumnSpec.Recased.eq {c c' : ColumnSpec} (h : c.Recased Eq c') : c = c' := by
  cases c
  cases c'
  cases h.name
  cases h.type
  rfl

/-- Lists whose items are equal each. -/
theorem eq_of_forall₂ {α : Type} {R : α → α → Prop} (hR : ∀ a b, R a b → a = b) {as bs : List α}
    (h : List.Forall₂ R as bs) : as = bs := by
  have he : List.Forall₂ Eq as bs := h.imp hR
  rwa [List.forall₂_eq_eq_eq] at he

namespace Table

variable {t : Table} {n n' : String}

/-- A name finds the same column in any case of its letters. -/
theorem findColumn_recased (t : Table) (h : SameLetters n n') :
    SameOutcome (t.findColumn n) (t.findColumn n') := by
  unfold findColumn
  rw [h.lower_eq]
  split <;> rfl

theorem selector_recased {w w' : Option Condition} (t : Table)
    (h : Option.Rel (Condition.Recased Eq) w w') :
    SameOutcome (t.selector w) (t.selector w') := by
  cases h with
  | none => exact .refl _
  | some h =>
    dsimp only [selector]
    rw [h.value.eq]
    exact (t.findColumn_recased h.column).bind fun _ => .refl _

theorem resolve_recased {columns columns' : Option (List String)} (t : Table)
    (h : Option.Rel (List.Forall₂ SameLetters) columns columns') :
    SameOutcome (t.resolve columns) (t.resolve columns') := by
  cases h with
  | none => exact .refl _
  | some h =>
    refine SameOutcome.mapM (fun n n' hn => ?_) h
    exact (t.findColumn_recased hn).bind fun _ => .refl _

theorem resolveAssignments_recased {as as' : List Assignment} (t : Table)
    (h : List.Forall₂ (Assignment.Recased Eq) as as') (known : List (Column × Value)) :
    SameOutcome (t.resolveAssignments known as) (t.resolveAssignments known as') := by
  induction h generalizing known with
  | nil => exact .refl _
  | @cons a a' as as' ha _ ih =>
    unfold resolveAssignments
    rw [ha.value.eq]
    refine (t.findColumn_recased ha.column).bind fun c => ?_
    dsimp only
    split
    · exact .refl _
    · exact SameOutcome.bind (.refl _) fun _ => ih _

end Table

/-! Statements -/

namespace Sql.Statement

theorem changeTable_recased (c : Catalog) (name : String)
    {act act' : Table → Except Error (Table × Except Error Nat)}
    (h : ∀ t, SameOutcome (act t) (act' t)) (reply : Table → Nat → Reply) :
    SameOutcome (changeTable c name act reply) (changeTable c name act' reply) :=
  SameOutcome.bind (.refl _) fun _ => SameOutcome.bind (.refl _) fun t =>
    (h t).bind fun _ => .refl _

/-- Statements that differ only in the case of the columns they refer to do the same. -/
theorem run_recased {x x' : Statement} (h : x.Recased Eq x') (c : Catalog) :
    SameOutcome (x.run c) (x'.run c) := by
  cases h with
  | createTable hn hc =>
    rw [hn, eq_of_forall₂ (fun _ _ => ColumnSpec.Recased.eq) hc]
    exact .refl _
  | insert hn hv =>
    rw [hn, eq_of_forall₂ (fun _ _ => Literal.Recased.eq) hv]
    exact .refl _
  | select hn hc hw =>
    subst hn
    refine SameOutcome.bind (.refl _) fun d => SameOutcome.bind (.refl _) fun t => ?_
    refine SameOutcome.bind ?_ fun _ => .refl _
    exact (t.resolve_recased hc).bind fun _ => (t.selector_recased hw).bind fun _ => .refl _
  | update hn ha hw =>
    subst hn
    refine changeTable_recased c _ (fun t => ?_) _
    exact (t.resolveAssignments_recased ha []).bind fun _ =>
      (t.selector_recased hw).bind fun _ => .refl _
  | delete hn hw =>
    subst hn
    refine changeTable_recased c _ (fun t => SameOutcome.map ?_ _) _
    exact (t.selector_recased hw).bind fun _ => .refl _
  | createDatabase hn | dropDatabase hn | useDatabase hn | dropTable hn =>
    rw [hn]
    exact .refl _
  | showDatabases | showTables | help => exact .refl _

/-- What is selected is shown under the names that the columns have in their table. -/
theorem columns_of_run {x : Statement} {c : Catalog} {ch : Change (Except Error Reply)}
    (h : x.run c = .ok ch) {names : List String} {rows : List (List Value)}
    (ha : ch.result = .ok (.selected names rows)) :
    ∃ d t, c.current = .ok d ∧ t ∈ d.tables ∧ ∀ name ∈ names, name ∈ t.columnNames := by
  cases x with
  | select table columns condition =>
    obtain ⟨d, hd, h⟩ := bind_eq_ok_iff.1 h
    obtain ⟨t, ht, h⟩ := bind_eq_ok_iff.1 h
    obtain ⟨⟨names', rows'⟩, hs, h⟩ := bind_eq_ok_iff.1 h
    cases h
    cases ha
    obtain ⟨shown, hr, hs⟩ := bind_eq_ok_iff.1 hs
    obtain ⟨selects, -, hs⟩ := bind_eq_ok_iff.1 hs
    cases hs
    exact ⟨d, t, hd, (Database.table_eq_ok ht).1, Table.mem_columnNames_of_resolve hr⟩
  | insert | update | delete =>
    obtain ⟨t, count, hr, -⟩ := changeTable_eq_ok h ha
    cases hr
  | createDatabase | dropDatabase | useDatabase | dropTable | showTables =>
    obtain ⟨_, -, h⟩ := bind_eq_ok_iff.1 h
    cases h
    cases ha
  | createTable =>
    obtain ⟨_, -, h⟩ := bind_eq_ok_iff.1 h
    obtain ⟨_, -, h⟩ := bind_eq_ok_iff.1 h
    cases h
    cases ha
  | showDatabases | help =>
    cases h
    cases ha

end Sql.Statement

namespace Session

variable {s : Session} {text text' : String} {x x' : Statement}

theorem execute_of_sameOutcome (hp : Statement.parse text = .ok x)
    (hp' : Statement.parse text' = .ok x') (h : SameOutcome (x.run s.catalog) (x'.run s.catalog)) :
    (s.execute text').1 = (s.execute text).1 ∧
      SameOutcome (s.execute text).2 (s.execute text').2 := by
  cases hr : x.run s.catalog with
  | ok ch =>
    rw [hr] at h
    rw [execute_congr hp hp' (hr.trans h.eq_ok.symm)]
    exact ⟨rfl, .refl _⟩
  | error e =>
    cases hr' : x'.run s.catalog with
    | ok ch => rw [hr, hr'] at h; cases h
    | error e' =>
      rw [hr, hr'] at h
      rw [execute_of_error hp hr, execute_of_error hp' hr']
      exact ⟨rfl, congrArg Except.error (Except.error.inj h)⟩

/-- An answer to a query has the names of the columns as they are stored. -/
theorem columns_of_execute {names : List String} {rows : List (List Value)}
    (h : (s.execute text).2 = .ok (.selected names rows)) :
    ∃ d t, s.catalog.current = .ok d ∧ t ∈ d.tables ∧ ∀ name ∈ names, name ∈ t.columnNames := by
  cases hp : Statement.parse text with
  | error e =>
    rw [execute, hp] at h
    cases h
  | ok x =>
    obtain ⟨ch, hr⟩ := exists_run hp h
    rw [execute, hp] at h
    dsimp only [change] at h
    rw [hr] at h
    exact Statement.columns_of_run hr (result_of_commit h)

/-- Two texts that differ only in the case of letters of ASCII are both no statements, or they are
statements of one form with the same letters in all names and literals. If it is only in keywords,
types and the columns referred to that the case differs, then in every session they leave the same
behind, and answer with the same result or with errors of one kind; what they select is shown under
the names that the columns have in their table. -/
theorem execute_recased (h : SameLetters text text') :
    ((∃ e e', Statement.parse text = .error e ∧ Statement.parse text' = .error e') ∨
      ∃ x x', Statement.parse text = .ok x ∧ Statement.parse text' = .ok x' ∧
        x.Recased SameLetters x') ∧
    ∀ s : Session,
      (∀ x x', Statement.parse text = .ok x → Statement.parse text' = .ok x' → x.Recased Eq x') →
      (s.execute text').1 = (s.execute text).1 ∧
      SameOutcome (s.execute text).2 (s.execute text').2 ∧
      ∀ names rows, (s.execute text).2 = .ok (.selected names rows) →
        ∃ d t, s.catalog.current = .ok d ∧ t ∈ d.tables ∧ ∀ name ∈ names, name ∈ t.columnNames := by
  refine ⟨Statement.parse_cases h, fun s hsame => ?_⟩
  rcases Statement.parse_cases h with ⟨e, e', hp, hp'⟩ | ⟨x, x', hp, hp', -⟩
  · refine ⟨?_, ?_, fun _ _ => columns_of_execute⟩
    · rw [execute, execute, hp, hp']
    · rw [execute, execute, hp, hp']
      rfl
  · obtain ⟨hs, ha⟩ := execute_of_sameOutcome hp hp'
      (Statement.run_recased (hsame x x' hp hp') s.catalog)
    exact ⟨hs, ha, fun _ _ => columns_of_execute⟩

/-- A table whose columns have letters beyond ASCII, one of them a capital sigma that ends a word. -/
def sigmaSteps : List (Faults × Connection.Action) :=
  [({}, .reopen), ({}, .session (.execute "CREATE DATABASE d;")),
    ({}, .session (.execute "USE d;")),
    ({}, .session (.execute "CREATE TABLE t (aΣ INTEGER, É STRING);")),
    ({}, .session (.execute "INSERT INTO t VALUES (1, x);"))]

theorem answer_sigmaSteps :
    ((Connection.closed { store := .memory .empty }).run sigmaSteps).session?.map (fun s =>
      (s.execute "SELECT aΣ FROM t WHERE É = x;").2.toOption) =
      some (some (.selected ["aΣ"] [[.integer 1]])) := by
  decide +kernel

theorem execute_recased_sigma :
    ∃ s, Connection.Reaches { store := .memory .empty } s ∧
      (s.execute "select AΣ From t wHERE É = x;").1 =
        (s.execute "SELECT aΣ FROM t WHERE É = x;").1 ∧
      (s.execute "select AΣ From t wHERE É = x;").2 = .ok (.selected ["aΣ"] [[.integer 1]]) := by
  obtain ⟨s, hs, ha⟩ := Connection.opened_of_session? answer_sigmaSteps
  have hletters : SameLetters "SELECT aΣ FROM t WHERE É = x;" "select AΣ From t wHERE É = x;" := by
    decide
  have hp : Statement.parse "SELECT aΣ FROM t WHERE É = x;" =
      .ok (.select "t" (some ["aΣ"]) (some ⟨"É", .text "x"⟩)) := by decide +kernel
  have hp' : Statement.parse "select AΣ From t wHERE É = x;" =
      .ok (.select "t" (some ["AΣ"]) (some ⟨"É", .text "x"⟩)) := by decide +kernel
  obtain ⟨hsession, hanswer, -⟩ := (execute_recased hletters).2 s fun x x' hx hx' => by
    rw [hp] at hx
    rw [hp'] at hx'
    cases hx
    cases hx'
    exact .select rfl (.some (.cons (by decide) .nil)) (.some ⟨rfl, .text rfl⟩)
  rw [toOption_eq_some_iff] at ha
  rw [ha] at hanswer
  exact ⟨s, ⟨sigmaSteps, hs⟩, hsession, hanswer.eq_ok⟩

end Session

end TableStore

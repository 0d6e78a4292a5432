import TableStore.Proofs.Commuting
import TableStore.Proofs.Restating

/-!
# Statements that are carried out

A statement is carried out in memory if it leaves a new catalog and has a reply; whether the reply
is given is then a matter of its storage call alone. Work on the rows of a table is carried out if
and only if it can be done on the table, and the next statement finds the table as the work has left
it.
-/
namespace TableStore

open Sql

theorem Database.mem_replaceTable {d : Database} {t t' : Table} (ht : t ∈ d.tables)
    (hn : t'.name = t.name) : t' ∈ (d.replaceTable t').tables :=
  List.mem_map.2 ⟨t, ht, if_pos hn.symm⟩

namespace Sql.Statement

variable {c : Catalog} {d : Database} {t : Table} {name : String}
  {act : Table → Except Error (Table × Except Error Nat)} {reply : Table → Nat → Reply}

theorem changeTable_of_error (hd : c.current = .ok d) (ht : d.table name = .ok t) {e : Error}
    (ha : act t = .error e) : changeTable c name act reply = .error e := by
  rw [changeTable, hd, ok_bind, ht, ok_bind, ha]
  rfl

end Sql.Statement

/-! Sessions -/

namespace Session

variable {s : Session} {text : String} {x : Statement}

/-- In memory the text leads to the catalog and the reply. The reply is given unless the storage
refuses a call, and then the answer is that refusal. -/
structure Performs (s : Session) (text : String) (c : Catalog) (reply : Reply) : Prop where
  catalog : (s.execute text).1.catalog = c
  answer : (s.event (.execute text)).Succeeds → (s.execute text).2 = .ok reply
  refusal : ¬(s.event (.execute text)).Succeeds → ∃ e, (s.execute text).2 = .error (.ofStorage e)

theorem performs_of_run (hc : s.catalog.WellFormed) (hp : Statement.parse text = .ok x)
    {c : Catalog} {call : Option StorageCall} {reply : Reply}
    (hr : x.run s.catalog = .ok ⟨c, call, .ok reply⟩) : s.Performs text c reply := by
  have h := carriesOut_event hc (.execute text)
  have hplan : plan s.catalog (.execute text) = ⟨c, call, .ok (some reply)⟩ := by
    rw [plan, planText, hp]
    dsimp only
    rw [hr]
    rfl
  rw [hplan] at h
  refine ⟨h.catalog, fun hs => ?_, fun hs => ?_⟩
  · obtain ⟨reply', hr', hsome⟩ := map_eq_ok_iff.1 (h.answer hs)
    cases hsome
    exact hr'
  · obtain ⟨r, hm, hrefused⟩ : ∃ r ∈ (s.event (.execute text)).calls, r.refused = true := by
      simpa [Event.Succeeds] using hs
    obtain ⟨e, -, he⟩ := h.reports r hm hrefused
    exact ⟨e, map_eq_error_iff.1 he⟩

theorem execute_of_error (hp : Statement.parse text = .ok x) {e : Error}
    (hr : x.run s.catalog = .error e) : s.execute text = (s, .error e) := by
  rw [execute, hp]
  dsimp only [change]
  rw [hr]
  rfl

/-- What is answered is the text of a statement that can be run. -/
theorem exists_run (hp : Statement.parse text = .ok x) {reply : Reply}
    (h : (s.execute text).2 = .ok reply) : ∃ ch, x.run s.catalog = .ok ch := by
  cases hr : x.run s.catalog with
  | ok ch => exact ⟨ch, rfl⟩
  | error e =>
    rw [execute_of_error hp hr] at h
    cases h

/-- What is carried out is no text that is answered with an error and nothing done. -/
theorem Performs.run {c : Catalog} {reply : Reply} (h : s.Performs text c reply)
    (hp : Statement.parse text = .ok x) : ∃ ch, x.run s.catalog = .ok ch := by
  cases hr : x.run s.catalog with
  | ok ch => exact ⟨ch, rfl⟩
  | error e =>
    have hx := execute_of_error hp hr
    have hcalls : (s.event (.execute text)).calls = [] := by
      rw [event, respond, hx]
      exact List.drop_length
    have ha := h.answer (by simp [Event.Succeeds, hcalls])
    rw [hx] at ha
    cases ha

/-- Texts of statements that come to the same are executed alike. -/
theorem execute_congr {text' : String} {y : Statement} (hp : Statement.parse text = .ok x)
    (hp' : Statement.parse text' = .ok y) (h : x.run s.catalog = y.run s.catalog) :
    s.execute text = s.execute text' := by
  rw [execute, execute, hp, hp']
  dsimp only [change]
  rw [h]

/-! Work on a table -/

variable {d : Database} {t t' : Table} {act : Table → Except Error (Table × Except Error Nat)}
  {reply : Table → Nat → Reply} {count : Nat}

theorem performs_changeTable (hc : s.catalog.WellFormed) (hd : s.catalog.current = .ok d)
    (ht : t ∈ d.tables) (hp : Statement.parse text = .ok x)
    (hx : x.run s.catalog = Statement.changeTable s.catalog t.name act reply)
    (ha : act t = .ok (t', .ok count)) :
    s.Performs text (s.catalog.putTable d t') (reply t count) :=
  performs_of_run hc hp
    (hx.trans (Statement.changeTable_of_act hd ((hc.current hd).table ht) ha))

theorem Performs.exists_act {c : Catalog} {r : Reply} (h : s.Performs text c r)
    (hc : s.catalog.WellFormed) (hd : s.catalog.current = .ok d) (ht : t ∈ d.tables)
    (hp : Statement.parse text = .ok x)
    (hx : x.run s.catalog = Statement.changeTable s.catalog t.name act reply) :
    ∃ done, act t = .ok done := by
  obtain ⟨ch, hr⟩ := h.run hp
  cases ha : act t with
  | ok done => exact ⟨done, rfl⟩
  | error e =>
    rw [hx, Statement.changeTable_of_error hd ((hc.current hd).table ht) ha] at hr
    cases hr

theorem execute_changeTable_of_error (hc : s.catalog.WellFormed) (hd : s.catalog.current = .ok d)
    (ht : t ∈ d.tables) (hp : Statement.parse text = .ok x)
    (hx : x.run s.catalog = Statement.changeTable s.catalog t.name act reply) {e : Error}
    (ha : act t = .error e) : s.execute text = (s, .error e) :=
  execute_of_error hp (hx.trans (Statement.changeTable_of_error hd ((hc.current hd).table ht) ha))

/-- Work on some rows is done and stored; without a row to work on nothing is done. -/
theorem execute_changeTable (hc : s.catalog.WellFormed) (hd : s.catalog.current = .ok d)
    (ht : t ∈ d.tables) (hp : Statement.parse text = .ok x)
    (hx : x.run s.catalog = Statement.changeTable s.catalog t.name act reply)
    (ha : act t = .ok (t', .ok count)) (hb : t.Becomes t' count) :
    s.execute text = if count = 0 then (s, .ok (reply t count))
      else (⟨s.catalog.putTable d t', (s.storage.save (d.replaceTable t')).1⟩,
        (s.storage.save (d.replaceTable t')).2.map fun _ => reply t count) := by
  have hw := hc.current hd
  rw [execute_of_run hp (hx.trans (Statement.changeTable_of_act hd (hw.table ht) ha))]
  split
  · rename_i h0
    rw [hb.unchanged h0, Catalog.putTable, Database.replaceTable_self hw.nodup ht,
      Catalog.putCurrent_current hd]
    rfl
  · have hname : (d.replaceTable t').name = d.name := rfl
    obtain ⟨hput, hsave⟩ := hc.putCurrent_eq hd hname
    rw [Catalog.putTable, hput, hsave, commit_put]
    cases (s.storage.save (d.replaceTable t')).2 <;> rfl

/-- What comes after work on a table finds the table that the work has made. -/
theorem Performs.after {r : Reply} (h : s.Performs text (s.catalog.putTable d t') r)
    (hc : s.catalog.WellFormed) (hd : s.catalog.current = .ok d) (faults : Faults) :
    ((s.execute text).1.setFaults faults).catalog.WellFormed ∧
      ((s.execute text).1.setFaults faults).catalog.current = .ok (d.replaceTable t') := by
  refine ⟨wellFormed_execute hc text, ?_⟩
  have hcat : ((s.execute text).1.setFaults faults).catalog = s.catalog.putTable d t' := h.catalog
  rw [hcat]
  exact Catalog.current_putCurrent hd _

end Session

end TableStore

import TableStore.Proofs.Frame
import TableStore.Proofs.Overwriting

/-!
# Independent statements

Statements about the rows of different tables do not get in each other's way. Each decides what to
do by its own table, and what the second stores is the document of the whole database, with what the
first has done. So in either order they answer the same and come to the same session.
-/
namespace TableStore

open Sql

/-! Databases and catalogs -/

namespace Database

theorem table_replaceTable_of_ne (d : Database) {t : Table} {name : String}
    (h : t.name ≠ Text.trim name) : (d.replaceTable t).table name = d.table name := by
  have hf : (d.replaceTable t).table? name = d.table? name := by
    unfold table? replaceTable
    dsimp only
    induction d.tables with
    | nil => rfl
    | cons u us ih =>
      rw [List.map_cons, List.find?_cons, List.find?_cons, ih]
      by_cases hu : u.name = t.name
      · rw [if_pos hu, hu, beq_eq_false_iff_ne.2 h]
      · rw [if_neg hu]
  rw [table, table, hf]
  rfl

theorem replaceTable_comm (d : Database) {t u : Table} (h : t.name ≠ u.name) :
    (d.replaceTable t).replaceTable u = (d.replaceTable u).replaceTable t := by
  unfold replaceTable
  dsimp only
  rw [List.map_map, List.map_map]
  congr 1
  refine List.map_congr_left fun v _ => ?_
  rw [Function.comp_apply, Function.comp_apply]
  by_cases hv : v.name = t.name
  · have hu : v.name ≠ u.name := fun he => h (hv.symm.trans he)
    rw [if_pos hv, if_neg h, if_neg hu, if_pos hv]
  · by_cases hu : v.name = u.name
    · rw [if_neg hv, if_pos hu, if_neg h.symm]
    · rw [if_neg hv, if_neg hu, if_neg hv]

end Database

namespace Catalog

variable {c : Catalog} {d : Database}

/-- The table takes the place of the one of its name in the selected database, if one is
selected. -/
def withTable (c : Catalog) (t : Table) : Catalog :=
  match c.current with
  | .ok d => c.putTable d t
  | .error _ => c

theorem withTable_of_current (h : c.current = .ok d) (t : Table) :
    c.withTable t = c.putTable d t := by
  rw [withTable, h]

theorem selected_withTable (c : Catalog) (t : Table) : (c.withTable t).selected = c.selected := by
  unfold withTable
  split
  · unfold putTable putCurrent
    split <;> rfl
  · rfl

theorem current_putCurrent (h : c.current = .ok d) (d' : Database) :
    (c.putCurrent d').current = .ok d' := by
  obtain ⟨name, hs, -⟩ := current_eq_ok h
  rw [putCurrent, hs, current, Option.bind_some, NameMap.get?_insert_self]

theorem current_withTable (c : Catalog) (t : Table) :
    (c.withTable t).current = c.current.map fun d => d.replaceTable t := by
  cases h : c.current with
  | error e => rw [withTable, h, h, Except.map]
  | ok d => rw [withTable_of_current h, putTable, current_putCurrent h, Except.map]

theorem putCurrent_putCurrent (h : c.current = .ok d) (d' d'' : Database) :
    (c.putCurrent d').putCurrent d'' = c.putCurrent d'' := by
  obtain ⟨name, hs, -⟩ := current_eq_ok h
  rw [putCurrent, putCurrent, putCurrent, hs]
  dsimp only
  rw [NameMap.insert_insert]

theorem withTable_withTable (h : c.current = .ok d) (t u : Table) :
    (c.withTable t).withTable u = c.putCurrent ((d.replaceTable t).replaceTable u) := by
  have hc : (c.withTable t).current = .ok (d.replaceTable t) := by
    rw [current_withTable, h, Except.map]
  rw [withTable_of_current hc, putTable, withTable_of_current h, putTable, putCurrent_putCurrent h]

theorem withTable_comm (c : Catalog) {t u : Table} (h : t.name ≠ u.name) :
    (c.withTable t).withTable u = (c.withTable u).withTable t := by
  cases hd : c.current with
  | error e =>
    have hc : ∀ v : Table, c.withTable v = c := fun v => by rw [withTable, hd]
    rw [hc, hc, hc]
  | ok d => rw [withTable_withTable hd, withTable_withTable hd, d.replaceTable_comm h]

end Catalog

/-! Statements -/

namespace Sql.Statement

/-- The statement is about the rows of a table. -/
def isOnRows : Statement → Bool
  | insert _ _ => true
  | select _ _ _ => true
  | update _ _ _ => true
  | delete _ _ => true
  | _ => false

variable {c : Catalog} {x : Statement} {ch : Change (Except Error Reply)}

/-- A statement about rows is a query or work on one table, which keeps its name. -/
theorem isOnRows_cases (hx : x.isOnRows = true) :
    (∃ name columns condition, x = select name columns condition) ∨
    ∃ name act reply, (∀ t r, act t = .ok r → r.1.name = t.name) ∧
      x.table? = some (Text.trim name) ∧ x.database? = none ∧
      ∀ c, x.run c = changeTable c name act reply := by
  cases x with
  | insert name values =>
    refine .inr ⟨name, _, _, fun t r hr => ?_, rfl, rfl, fun c => rfl⟩
    obtain ⟨t', hi, rfl⟩ := map_eq_ok_iff.1 hr
    exact Table.name_of_insert hi
  | select name columns condition => exact .inl ⟨name, columns, condition, rfl⟩
  | update name assignments condition =>
    exact .inr ⟨name, _, _, fun t r hr => Table.name_of_update hr, rfl, rfl, fun c => rfl⟩
  | delete name condition =>
    refine .inr ⟨name, _, _, fun t r hr => ?_, rfl, rfl, fun c => rfl⟩
    obtain ⟨r', hd, rfl⟩ := map_eq_ok_iff.1 hr
    exact Table.name_of_delete hd
  | _ => cases hx

/-- Another table in the selected database makes no difference to work on this one. -/
theorem changeTable_withTable {name : String}
    {act : Table → Except Error (Table × Except Error Nat)} {reply : Table → Nat → Reply}
    (ha : ∀ t r, act t = .ok r → r.1.name = t.name) {u : Table} (hu : u.name ≠ Text.trim name) :
    changeTable (c.withTable u) name act reply =
      (changeTable c name act reply).map fun ch =>
        { ch with catalog := ch.catalog.withTable u } := by
  unfold changeTable
  rw [Catalog.current_withTable]
  cases hd : c.current with
  | error e => rfl
  | ok d =>
    rw [Except.map, ok_bind, ok_bind, d.table_replaceTable_of_ne hu]
    cases ht : d.table name with
    | error e => rfl
    | ok t =>
      rw [ok_bind, ok_bind]
      cases hr : act t with
      | error e => rfl
      | ok r =>
        obtain ⟨t', outcome⟩ := r
        have hn : t'.name ≠ u.name := by
          rw [ha t _ hr, (Database.table_eq_ok ht).2]
          exact hu.symm
        have hc : (c.withTable u).current = .ok (d.replaceTable u) := by
          rw [Catalog.current_withTable, hd, Except.map]
        have hp : (c.withTable u).putTable (d.replaceTable u) t' =
            (c.putTable d t').withTable u := by
          rw [← Catalog.withTable_of_current hc, ← Catalog.withTable_of_current hd,
            c.withTable_comm hn]
        have hs : (c.withTable u).saveCall = c.saveCall := by
          rw [Catalog.saveCall, Catalog.selected_withTable, Catalog.saveCall]
        rw [ok_bind, ok_bind]
        dsimp only
        rw [hp, hs]
        cases outcome <;> rfl

theorem run_withTable (hx : x.isOnRows = true) {u : Table} (hu : some u.name ≠ x.table?) :
    x.run (c.withTable u) =
      (x.run c).map fun ch => { ch with catalog := ch.catalog.withTable u } := by
  rcases isOnRows_cases hx with
    ⟨name, columns, condition, rfl⟩ | ⟨name, act, reply, ha, ht, -, hr⟩
  · have hn : u.name ≠ Text.trim name := fun he => hu (congrArg some he)
    rw [run, run, Catalog.current_withTable]
    cases hd : c.current with
    | error e => rfl
    | ok d =>
      rw [Except.map, ok_bind, ok_bind, d.table_replaceTable_of_ne hn]
      cases d.table name with
      | error e => rfl
      | ok t =>
        rw [ok_bind, ok_bind]
        cases t.select columns condition <;> rfl
  · rw [hr, hr]
    exact changeTable_withTable ha fun he => hu (he ▸ ht.symm)

/-- What a statement about rows comes to: nothing, or another table in the place of its own, which
is stored. -/
inductive Touches (c : Catalog) (table : Option String) : Catalog → Option StorageCall → Prop
  | nothing : Touches c table c none
  | row {d : Database} {t : Table} (hd : c.current = .ok d) (ht : some t.name = table) :
    Touches c table (c.withTable t) (some (.save d.name))

theorem Touches.eq_of_none {c c' : Catalog} {table : Option String} (h : Touches c table c' none) :
    c' = c := by
  cases h
  rfl

/-- What is stored is the database that is selected then. -/
theorem Touches.current {c c' : Catalog} {table : Option String} {call : StorageCall}
    (h : Touches c table c' (some call)) : ∃ d, c'.current = .ok d ∧ call = .save d.name := by
  cases h with
  | @row d t hd ht =>
    exact ⟨d.replaceTable t, by rw [Catalog.current_withTable, hd, Except.map], rfl⟩

theorem catalog_of_call_none (hc : c.WellFormed) (h : x.run c = .ok ch) (hx : x.database? = none)
    (hn : ch.call = none) : ch.catalog = c := by
  have hm := (run_moves hc h).1
  rw [hn] at hm
  have hd := hm.databases_of_none
  have hs := (frame_run h).selected hx
  obtain ⟨c', call, result⟩ := ch
  obtain ⟨databases, selected⟩ := c'
  cases hd
  cases hs
  rfl

theorem touches_changeTable (hc : c.WellFormed) {name : String}
    {act : Table → Except Error (Table × Except Error Nat)} {reply : Table → Nat → Reply}
    (ha : ∀ t r, act t = .ok r → r.1.name = t.name) (h : changeTable c name act reply = .ok ch)
    (hn : ch.call = none → ch.catalog = c) :
    Touches c (some (Text.trim name)) ch.catalog ch.call := by
  obtain ⟨d, hd, h⟩ := bind_eq_ok_iff.1 h
  obtain ⟨t, ht, h⟩ := bind_eq_ok_iff.1 h
  obtain ⟨⟨t', outcome⟩, hr, h⟩ := bind_eq_ok_iff.1 h
  have hname : t'.name = Text.trim name := (ha t _ hr).trans (Database.table_eq_ok ht).2
  have hs : c.saveCall = some (.save d.name) := (hc.putCurrent_eq hd (rfl : d.name = d.name)).2
  cases hcall : ch.call with
  | none =>
    rw [hn hcall]
    exact .nothing
  | some call =>
    dsimp only at h
    split at h
    · cases h
      cases hcall
    · cases h
      dsimp only at hcall ⊢
      split at hcall
      · cases hcall
      · rw [hs] at hcall
        cases hcall
        rw [← Catalog.withTable_of_current hd]
        exact .row hd (congrArg some hname)

theorem touches_run (hc : c.WellFormed) (hx : x.isOnRows = true) (h : x.run c = .ok ch) :
    Touches c x.table? ch.catalog ch.call := by
  rcases isOnRows_cases hx with
    ⟨name, columns, condition, rfl⟩ | ⟨name, act, reply, ha, ht, hd, hr⟩
  · have hn := call_of_isPassive rfl h
    rw [hn, catalog_of_call_none hc h rfl hn]
    exact .nothing
  · rw [ht]
    exact touches_changeTable hc ha ((hr c).symm.trans h) (catalog_of_call_none hc h hd)

end Sql.Statement

/-! Plans -/

namespace Session

open Statement

variable {c : Catalog} {text : String} {x : Statement}

theorem planText_withTable (hp : Statement.parse text = .ok x) (hx : x.isOnRows = true) {u : Table}
    (hu : some u.name ≠ x.table?) : planText (c.withTable u) text =
      { planText c text with catalog := (planText c text).catalog.withTable u } := by
  unfold planText
  rw [hp]
  dsimp only
  rw [run_withTable hx hu]
  cases x.run c <;> rfl

theorem touches_planText (hc : c.WellFormed) (hp : Statement.parse text = .ok x)
    (hx : x.isOnRows = true) :
    Touches c x.table? (planText c text).catalog (planText c text).call := by
  unfold planText
  rw [hp]
  dsimp only
  cases hr : x.run c with
  | error e => exact .nothing
  | ok ch => exact touches_run hc hx hr

/-- Statements on different tables are planned the same in either order, and together come to one
catalog. -/
theorem planText_comm (hc : c.WellFormed) {text' : String} {y : Statement}
    (hp : Statement.parse text = .ok x) (hp' : Statement.parse text' = .ok y)
    (hx : x.isOnRows = true) (hy : y.isOnRows = true) (hxy : x.table? ≠ y.table?) :
    ∃ c', planText (planText c text).catalog text' = { planText c text' with catalog := c' } ∧
      planText (planText c text').catalog text = { planText c text with catalog := c' } := by
  have ha := touches_planText hc hp hx
  have hb := touches_planText hc hp' hy
  -- what a statement puts in the place of its table is out of the other's sight
  generalize hA : planText c text = A at ha ⊢
  generalize hB : planText c text' = B at hb ⊢
  obtain ⟨a, callA, answerA⟩ := A
  obtain ⟨b, callB, answerB⟩ := B
  dsimp only at ha hb ⊢
  cases ha with
  | nothing =>
    refine ⟨b, hB, ?_⟩
    cases hb with
    | nothing => exact hA
    | row hd ht =>
      rw [planText_withTable hp hx (by rw [ht]; exact hxy.symm), hA]
  | @row d t hd ht =>
    have hbt := planText_withTable (c := c) hp' hy (u := t) (by rw [ht]; exact hxy)
    rw [hB] at hbt
    refine ⟨_, hbt, ?_⟩
    cases hb with
    | nothing => exact hA
    | @row _ u _ hu =>
      have hau := planText_withTable (c := c) hp hx (u := u) (by rw [hu]; exact hxy.symm)
      rw [hA] at hau
      have hn : t.name ≠ u.name := fun he => hxy (by rw [← ht, ← hu, he])
      rw [hau, c.withTable_comm hn]

end Session

/-! Sessions -/

namespace Session

open Statement

variable {s : Session} {text text' : String} {x y : Statement}

/-- A change that is to be stored under the name of its selected database stores that. -/
theorem commit_current {α : Type} (s : Session) {c : Catalog} (hc : c.WellFormed) {d : Database}
    (hd : c.current = .ok d) (answer : α) : s.commit ⟨c, some (.save d.name), answer⟩ =
      (⟨c, (s.storage.save d).1⟩, (s.storage.save d).2.map fun _ => answer) := by
  have hdb : c.database d.name = .ok d := by
    obtain ⟨name, -, hg⟩ := Catalog.current_eq_ok hd
    obtain ⟨rfl, -⟩ := hc.databases name d hg
    rw [Catalog.database, hg]
  unfold commit
  dsimp only [call, save]
  rw [hdb]
  rfl

/-- Two changes that are stored one after the other leave the catalog of the second one. -/
theorem commit_commit {α β : Type} (s : Session) {c c' : Catalog} (hc : c.WellFormed)
    {d e : Database} (hd : c.current = .ok d) {answer : α} (hc' : c'.WellFormed)
    (he : c'.current = .ok e) {name : String} (hn : name = e.name) {answer' : β} :
    (s.commit ⟨c, some (.save d.name), answer⟩).1.commit ⟨c', some (.save name), answer'⟩ =
      (⟨c', ((s.storage.save d).1.save e).1⟩,
        ((s.storage.save d).1.save e).2.map fun _ => answer') := by
  rw [hn, commit_current s hc hd, commit_current _ hc' he]

/-- A change that changes nothing leaves the session as it is. -/
theorem commit_none {α : Type} {c : Catalog} (h : s.catalog = c) (answer : α) :
    (s.commit ⟨c, none, answer⟩).1 = s := by
  subst h
  rfl

/-- In either order two statements on different tables come to one session, and the second answers
as it does when it comes first. -/
theorem respond_comm (hc : s.catalog.WellFormed) (hp : Statement.parse text = .ok x)
    (hp' : Statement.parse text' = .ok y) (hx : x.isOnRows = true) (hy : y.isOnRows = true)
    (hxy : x.table? ≠ y.table?) :
    ((s.respond (.execute text)).1.respond (.execute text')).1 =
        ((s.respond (.execute text')).1.respond (.execute text)).1 ∧
      ((s.respond (.execute text)).1.respond (.execute text')).2 =
        (s.respond (.execute text')).2 := by
  have hwa := (planText_moves hc text).wellFormed hc
  have hwb := (planText_moves hc text').wellFormed hc
  have ha := touches_planText hc hp hx
  have hb := touches_planText hc hp' hy
  have hba := touches_planText hwa hp' hy
  have hab := touches_planText hwb hp hx
  obtain ⟨c', hB, hA⟩ := planText_comm hc hp hp' hx hy hxy
  have hwc := (planText_moves hwa text').wellFormed hwa
  simp only [respond_eq_commit, plan, catalog_commit]
  rw [hB] at hba hwc ⊢
  rw [hA] at hab ⊢
  generalize planText s.catalog text = A at ha hwa hba hab ⊢
  generalize planText s.catalog text' = B at hb hwb hba hab hwc ⊢
  clear hA hB
  obtain ⟨a, callA, answerA⟩ := A
  obtain ⟨b, callB, answerB⟩ := B
  dsimp only at ha hb hba hab hwa hwb hwc ⊢
  -- without a call a statement has changed nothing, and the other one is all there is
  cases callA with
  | none =>
    cases ha.eq_of_none
    cases hab.eq_of_none
    exact ⟨(commit_none (catalog_commit s _) answerA).symm, rfl⟩
  | some call =>
    cases callB with
    | none =>
      cases hb.eq_of_none
      cases hba.eq_of_none
      exact ⟨commit_none (catalog_commit s _) answerB, rfl⟩
    | some call' =>
      -- all four catalogs have a database of one name selected, and the last one has it as `e`
      obtain ⟨dA, hdA, rfl⟩ := ha.current
      obtain ⟨dB, hdB, rfl⟩ := hb.current
      obtain ⟨e, he, hne⟩ := hba.current
      obtain ⟨e', he', hne'⟩ := hab.current
      cases he.symm.trans he'
      injection hne with hnB
      injection hne' with hnA
      rw [s.commit_commit hwa hdA hwc he hnB, s.commit_commit hwb hdB hwc he hnA,
        s.commit_current hwb hdB]
      dsimp only
      rw [Storage.save_save hnA hnB, Storage.save_save_snd hnB, Storage.save_snd hnB]
      exact ⟨rfl, rfl⟩

theorem execute_of_respond {s' : Session}
    (h : (s.respond (.execute text)).2 = (s'.respond (.execute text)).2) :
    (s.execute text).2 = (s'.execute text).2 := by
  unfold respond at h
  dsimp only at h
  cases hr : (s.execute text).2 with
  | error e =>
    rw [hr] at h
    exact (map_eq_error_iff.1 h.symm).symm
  | ok r =>
    rw [hr] at h
    obtain ⟨r', hr', hsome⟩ := map_eq_ok_iff.1 h.symm
    cases hsome
    exact hr'.symm

/-! Storages that refuse calls of their own choice -/

/-- Two events with the same calls and, but for the refusal of a call, the same answer. -/
structure Event.Alike (e e' : Event) : Prop where
  calls : e.calls.map CallRecord.call = e'.calls.map CallRecord.call
  answer : e.Succeeds → e'.Succeeds → e.answer = e'.answer
  reports : e.Reports ∧ e'.Reports

theorem Event.CarriesOut.alike {e e' : Event} {ch ch' : Change (Except Error (Option Reply))}
    (h : e.CarriesOut ch) (h' : e'.CarriesOut ch') (hcall : ch.call = ch'.call)
    (hresult : ch.result = ch'.result) : e.Alike e' where
  calls := by rw [h.calls, h'.calls, hcall]
  answer hs hs' := by rw [h.answer hs, h'.answer hs', hresult]
  reports := ⟨h.reports, h'.reports⟩

/-- What a store comes to when the selected database is stored, if it is. -/
inductive Stores (c : Catalog) (st : Store) : Bool → Store → Prop
  | nothing : Stores c st false st
  | current {d : Database} {st' : Store} (hd : c.current = .ok d) (hs : st.save d = .ok st') :
    Stores c st true st'

theorem Stores.eq {c : Catalog} {st st₁ st₂ : Store} {stored : Bool} (h₁ : Stores c st stored st₁)
    (h₂ : Stores c st stored st₂) : st₁ = st₂ := by
  cases h₁ with
  | nothing =>
    cases h₂
    rfl
  | current hd hs =>
    cases h₂ with
    | current hd' hs' =>
      cases hd.symm.trans hd'
      exact Except.ok.inj (hs.symm.trans hs')

/-- What is stored last is all that counts. -/
theorem Stores.trans {c c' : Catalog} {st st' st'' : Store} {stored : Bool} {table : Option String}
    {call : Option StorageCall} (h : Stores c st stored st') (ht : Touches c table c' call)
    (h' : Stores c' st' call.isSome st'') : Stores c' st (stored || call.isSome) st'' := by
  cases ht with
  | nothing =>
    cases h'
    rw [Option.isSome_none, Bool.or_false]
    exact h
  | @row d t hd ht =>
    have hc : (c.withTable t).current = .ok (d.replaceTable t) := by
      rw [Catalog.current_withTable, hd, Except.map]
    rw [Option.isSome_some, Bool.or_true]
    cases h' with
    | @current e _ he hs =>
      refine .current he ?_
      cases h with
      | nothing => exact hs
      | current hd' hs' =>
        cases hd.symm.trans hd'
        cases hc.symm.trans he
        have hn : d.name = (d.replaceTable t).name := rfl
        rwa [Store.save_of_save hn hs'] at hs

theorem stores_event (hc : s.catalog.WellFormed) (hp : Statement.parse text = .ok x)
    (hx : x.isOnRows = true) (hs : (s.event (.execute text)).Succeeds) :
    Stores (planText s.catalog text).catalog s.storage.store (planText s.catalog text).call.isSome
      (s.event (.execute text)).after.storage.store := by
  have hw := (planText_moves hc text).wellFormed hc
  have ht := touches_planText hc hp hx
  unfold event at hs ⊢
  rw [respond_eq_commit] at hs ⊢
  dsimp only [plan] at hs ⊢
  generalize planText s.catalog text = ch at hw ht hs ⊢
  obtain ⟨c, call, answer⟩ := ch
  cases call with
  | none => exact .nothing
  | some call =>
    obtain ⟨d, hd, rfl⟩ := ht.current
    rw [s.commit_current hw hd, Storage.save_eq_settle] at hs ⊢
    cases hd' : s.storage.saved d with
    | ok store => exact .current hd (Storage.saved_eq_ok hd')
    | error err =>
      rw [hd'] at hs
      have hcalls := Event.calls_settle s c (.save d.name) (.error err)
      cases hs ⟨.save d.name, true⟩ (by rw [hcalls]; exact List.mem_singleton_self _)

theorem catalog_event (s : Session) (r : Request) :
    (s.event r).after.catalog = (plan s.catalog r).catalog := by
  rw [event, respond_eq_commit, catalog_commit]

theorem stores_events (hc : s.catalog.WellFormed) (hp : Statement.parse text = .ok x)
    (hp' : Statement.parse text' = .ok y) (hx : x.isOnRows = true) (hy : y.isOnRows = true)
    {faults : Faults} {a b : Event} (ha : s.event (.execute text) = a)
    (hb : (a.after.setFaults faults).event (.execute text') = b) (hsa : a.Succeeds)
    (hsb : b.Succeeds) {ch : Change (Except Error (Option Reply))}
    (hch : planText (planText s.catalog text).catalog text' = ch) :
    Stores ch.catalog s.storage.store ((planText s.catalog text).call.isSome || ch.call.isSome)
      b.after.storage.store := by
  have hs : a.after.catalog = (planText s.catalog text).catalog := ha ▸ catalog_event s _
  have hw : (planText s.catalog text).catalog.WellFormed := (planText_moves hc text).wellFormed hc
  have ht := touches_planText hw hp' hy
  have h : Stores (planText s.catalog text).catalog s.storage.store
      (planText s.catalog text).call.isSome a.after.storage.store := by
    subst ha
    exact stores_event hc hp hx hsa
  have h' : Stores (planText a.after.catalog text').catalog a.after.storage.store
      (planText a.after.catalog text').call.isSome b.after.storage.store := by
    subst hb
    exact stores_event (s := a.after.setFaults faults) (hs ▸ hw) hp' hy hsb
  rw [hch] at ht
  rw [hs, hch] at h'
  exact h.trans ht h'

/-- Two statements on different tables, each step with faults of its own. -/
theorem trace_comm (hc : s.catalog.WellFormed) (hp : Statement.parse text = .ok x)
    (hp' : Statement.parse text' = .ok y) (hx : x.isOnRows = true) (hy : y.isOnRows = true)
    (hxy : x.table? ≠ y.table?) (f g f' g' : Faults) {a b b' a' : Event}
    (ha : (s.setFaults f).event (.execute text) = a)
    (hb : (a.after.setFaults g).event (.execute text') = b)
    (hb' : (s.setFaults f').event (.execute text') = b')
    (ha' : (b'.after.setFaults g').event (.execute text) = a') :
    a.Alike a' ∧ b.Alike b' ∧ b.after.catalog = a'.after.catalog ∧
      (a.Succeeds → b.Succeeds → b'.Succeeds → a'.Succeeds →
        b.after.storage.store = a'.after.storage.store) := by
  obtain ⟨c', hB, hA⟩ := planText_comm hc hp hp' hx hy hxy
  have hca : a.CarriesOut (planText s.catalog text) :=
    ha ▸ carriesOut_event (s := s.setFaults f) hc (.execute text)
  have hcb' : b'.CarriesOut (planText s.catalog text') :=
    hb' ▸ carriesOut_event (s := s.setFaults f') hc (.execute text')
  have hwa : a.after.catalog.WellFormed := by
    rw [hca.catalog]
    exact (planText_moves hc text).wellFormed hc
  have hwb : b'.after.catalog.WellFormed := by
    rw [hcb'.catalog]
    exact (planText_moves hc text').wellFormed hc
  have hcb : b.CarriesOut { planText s.catalog text' with catalog := c' } := by
    have h := carriesOut_event (s := a.after.setFaults g) hwa (.execute text')
    rw [hb] at h
    dsimp only [plan, setFaults] at h
    rwa [hca.catalog, hB] at h
  have hca' : a'.CarriesOut { planText s.catalog text with catalog := c' } := by
    have h := carriesOut_event (s := b'.after.setFaults g') hwb (.execute text)
    rw [ha'] at h
    dsimp only [plan, setFaults] at h
    rwa [hcb'.catalog, hA] at h
  refine ⟨hca.alike hca' rfl rfl, hcb.alike hcb' rfl rfl, hcb.catalog.trans hca'.catalog.symm, ?_⟩
  intro hsa hsb hsb' hsa'
  have h := stores_events (s := s.setFaults f) hc hp hp' hx hy ha hb hsa hsb hB
  have h' := stores_events (s := s.setFaults f') hc hp' hp hy hx hb' ha' hsb' hsa' hA
  dsimp only at h h'
  rw [Bool.or_comm] at h'
  exact h.eq h'

end Session

namespace Connection

/-- In every state that a run comes to, two statements about the rows of different tables answer
the same in either order and come to the same session. Where the storage refuses calls of its own
choice they still make the same calls and come to the same catalog, and they come to the same store
if it refuses none. -/
theorem execute_comm {storage : Storage} {s : Session} (hs : Reaches storage s)
    {text text' : String} {x y : Statement} (hp : Statement.parse text = .ok x)
    (hp' : Statement.parse text' = .ok y) (hx : x.isOnRows = true) (hy : y.isOnRows = true)
    (hxy : x.table? ≠ y.table?) :
    ((s.execute text).1.execute text').1 = ((s.execute text').1.execute text).1 ∧
      ((s.execute text).1.execute text').2 = (s.execute text').2 ∧
      ((s.execute text').1.execute text).2 = (s.execute text).2 ∧
      ∀ f g f' g' : Faults, ∃ a b b' a',
        s.trace [(f, .execute text), (g, .execute text')] = [a, b] ∧
        s.trace [(f', .execute text'), (g', .execute text)] = [b', a'] ∧
        a.Alike a' ∧ b.Alike b' ∧ b.after.catalog = a'.after.catalog ∧
        (a.Succeeds → b.Succeeds → b'.Succeeds → a'.Succeeds →
          b.after.storage.store = a'.after.storage.store) := by
  have hc := hs.wellFormed
  obtain ⟨hab, hb⟩ := Session.respond_comm hc hp hp' hx hy hxy
  obtain ⟨-, ha⟩ := Session.respond_comm hc hp' hp hy hx hxy.symm
  refine ⟨hab, Session.execute_of_respond hb, Session.execute_of_respond ha, fun f g f' g' => ?_⟩
  exact ⟨_, _, _, _, rfl, rfl, Session.trace_comm hc hp hp' hx hy hxy f g f' g' rfl rfl rfl rfl⟩

theorem inserted_tablesSteps :
    ((closed { store := .memory .empty }).run tablesSteps).session?.map (fun s =>
      ((s.execute "INSERT INTO t VALUES (1);").2.toOption,
        (s.execute "INSERT INTO u VALUES (x);").2.toOption)) =
      some (some (.inserted "t" 1), some (.inserted "u" 1)) := by
  decide +kernel

theorem execute_comm_of_tablesSteps :
    ∃ s, (closed { store := .memory .empty }).run tablesSteps = .opened s ∧
      (s.execute "INSERT INTO t VALUES (1);").2 = .ok (.inserted "t" 1) ∧
      ((s.execute "INSERT INTO u VALUES (x);").1.execute "INSERT INTO t VALUES (1);").2 =
        .ok (.inserted "t" 1) ∧
      ((s.execute "INSERT INTO t VALUES (1);").1.execute "INSERT INTO u VALUES (x);").1 =
        ((s.execute "INSERT INTO u VALUES (x);").1.execute "INSERT INTO t VALUES (1);").1 := by
  obtain ⟨s, hs, hi⟩ := opened_of_session? inserted_tablesSteps
  have ha : (s.execute "INSERT INTO t VALUES (1);").2 = .ok (.inserted "t" 1) :=
    toOption_eq_some_iff.1 (Prod.mk.inj hi).1
  have hp : Statement.parse "INSERT INTO t VALUES (1);" = .ok (.insert "t" [.text "1"]) := by
    decide +kernel
  have hp' : Statement.parse "INSERT INTO u VALUES (x);" = .ok (.insert "u" [.text "x"]) := by
    decide +kernel
  obtain ⟨hsession, -, ha', -⟩ :=
    execute_comm ⟨tablesSteps, hs⟩ hp hp' rfl rfl (by decide +kernel)
  exact ⟨s, hs, ha, ha'.trans ha, hsession⟩

end Connection

end TableStore

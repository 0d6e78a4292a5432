import TableStore.Proofs.Assignment

/-!
# Assigning again, and in another order

What a row is after it takes values is settled by the values alone, in whatever order they come, and
a row that has taken them does not change when it takes them again. So an update carried out twice
does no more than one, even where it assigns to the column that its condition is about, and the
order of its assignments makes no difference.
-/
namespace TableStore

open Sql

/-! Rows -/

namespace Row

variable {target : Option (Column × Value)} {values values' : List (Column × Value)}
  {r r₁ r₂ : Row}

/-- A row of distinct columns is known by its columns and by its cells in any order. -/
theorem eq_of_cells_subset (hn : r₂.columnNames.Nodup) (h : r₁.columnNames = r₂.columnNames)
    (hs : r₁.cells ⊆ r₂.cells) : r₁ = r₂ := by
  obtain ⟨cells₁⟩ := r₁
  obtain ⟨cells₂⟩ := r₂
  have hlen : cells₁.length = cells₂.length := by
    simpa [columnNames] using congrArg List.length h
  congr 1
  refine List.ext_getElem hlen fun i h₁ h₂ => ?_
  refine List.inj_on_of_nodup_map hn (hs (List.getElem_mem h₁)) (List.getElem_mem h₂) ?_
  simpa [columnNames, h₁, h₂] using congrArg (fun names => names[i]?) h

theorem Takes.unique (hn : r.columnNames.Nodup) (h₁ : r.Takes values r₁)
    (h₂ : r.Takes values r₂) : r₁ = r₂ := by
  have hn₁ : r₁.columnNames.Nodup := h₁.columnNames ▸ hn
  have hn₂ : r₂.columnNames.Nodup := h₂.columnNames ▸ hn
  refine eq_of_cells_subset hn₂ (h₁.columnNames.trans h₂.columnNames.symm) fun cell hm => ?_
  by_cases hx : ∃ x ∈ values, x.1.name = cell.1
  · obtain ⟨x, hx, he⟩ := hx
    rw [List.inj_on_of_nodup_map hn₁ hm (h₁.given x hx) he.symm]
    exact h₂.given x hx
  · -- no value is for this column, so the cell is the one of the row before
    have hname : cell.1 ∈ r.columnNames := h₁.columnNames ▸ List.mem_map_of_mem hm
    obtain ⟨old, hold, he⟩ := List.mem_map.1 hname
    have hne : ∀ x ∈ values, x.1.name ≠ old.1 := fun x hv h => hx ⟨x, hv, h.trans he⟩
    rw [List.inj_on_of_nodup_map hn₁ hm (h₁.kept old hold hne) he.symm]
    exact h₂.kept old hold hne

theorem Takes.perm (h : r.Takes values r₁) (hp : values.Perm values') : r.Takes values' r₁ where
  columnNames := h.columnNames
  given x hx := h.given x (hp.mem_iff.2 hx)
  kept cell hm hne := h.kept cell hm fun x hx => hne x (hp.mem_iff.1 hx)

theorem Turns.unique (hn : r.columnNames.Nodup) (h₁ : r.Turns target values r₁)
    (h₂ : r.Turns target values r₂) : r₁ = r₂ := by
  unfold Turns at h₁ h₂
  split at h₁
  · rename_i hr
    rw [if_pos hr] at h₂
    exact h₁.unique hn h₂
  · rename_i hr
    rw [if_neg hr] at h₂
    rw [h₁, h₂]

theorem Turns.perm (h : r.Turns target values r₁) (hp : values.Perm values') :
    r.Turns target values' r₁ := by
  unfold Turns at h ⊢
  split at h
  · rename_i hr
    rw [if_pos hr]
    exact h.perm hp
  · rename_i hr
    rw [if_neg hr]
    exact h

/-- A row that has turned stays as it is: if it meets what is asked for, now or still, it met it
before and has the values. -/
theorem Turns.again (h : r.Turns target values r₁) : r₁.Turns target values r₁ := by
  unfold Turns at h ⊢
  split
  · rename_i hr₁
    split at h
    · exact ⟨rfl, h.given, fun _ hm _ => hm⟩
    · rename_i hr
      rw [h] at hr₁
      exact absurd hr₁ hr
  · rfl

theorem rows_unique {rows rows₁ rows₂ : List Row} (hn : ∀ r ∈ rows, r.columnNames.Nodup)
    (h₁ : List.Forall₂ (Turns target values) rows rows₁)
    (h₂ : List.Forall₂ (Turns target values) rows rows₂) : rows₁ = rows₂ := by
  induction h₁ generalizing rows₂ with
  | nil => exact (List.forall₂_nil_left_iff.1 h₂).symm
  | cons hr _ ih =>
    obtain _ | ⟨hr₂, hrows₂⟩ := h₂
    obtain ⟨hnr, hn⟩ := List.forall_mem_cons.1 hn
    rw [hr.unique hnr hr₂, ih hn hrows₂]

theorem rows_again {rows rows₁ : List Row} (h : List.Forall₂ (Turns target values) rows rows₁) :
    List.Forall₂ (Turns target values) rows₁ rows₁ := by
  induction h with
  | nil => exact .nil
  | cons hr _ ih => exact .cons hr.again ih

end Row

/-! Tables -/

namespace Table

variable {t : Table} {assignments assignments' : List Assignment} {values : List (Column × Value)}
  {condition : Option Condition}

theorem WellFormed.nodup_row (ht : t.WellFormed) : ∀ r ∈ t.rows, r.columnNames.Nodup := by
  intro r hr
  rw [Row.columnNames, map_fst_of_holds (ht.rows r hr)]
  exact ht.nodup

theorem Sets.perm (h : t.Sets assignments values) (hp : assignments.Perm assignments') :
    ∃ values', values.Perm values' ∧ t.Sets assignments' values' := by
  obtain ⟨values', hg, hv⟩ := List.perm_comp_forall₂ hp.symm h.gives
  exact ⟨values', hv.symm, hg, ((hv.map Prod.fst).nodup_iff).2 h.distinct⟩

/-- An updated table is not changed by the same update. -/
theorem update_again (ht : t.WellFormed) {t' : Table} {outcome : Except Error Nat}
    (h : t.update assignments condition = .ok (t', outcome)) :
    ∃ m, t'.update assignments condition = .ok (t', .ok m) := by
  obtain ⟨values, target, hs, hm⟩ := exists_sets_of_update ht h
  obtain ⟨rows, hu, hrows⟩ := hs.update ht hm
  obtain ⟨_, -, hb⟩ := update_eq_ok ht hu
  cases h.symm.trans hu
  obtain ⟨rows', hu', hrows'⟩ := (hs.withRows rows).update hb.wellFormed (hm.withRows rows)
  rw [← Row.rows_unique hb.wellFormed.nodup_row (Row.rows_again hrows) hrows'] at hu'
  exact ⟨_, hu'⟩

/-- The same assignments in another order make the same update. -/
theorem update_perm (ht : t.WellFormed) (hp : assignments.Perm assignments')
    {r : Table × Except Error Nat} (h : t.update assignments condition = .ok r) :
    t.update assignments' condition = .ok r := by
  obtain ⟨values, target, hs, hm⟩ := exists_sets_of_update ht h
  obtain ⟨values', hv, hs'⟩ := hs.perm hp
  obtain ⟨rows, hu, hrows⟩ := hs.update ht hm
  obtain ⟨rows', hu', hrows'⟩ := hs'.update ht hm
  rw [hu', ← h, hu, Row.rows_unique ht.nodup_row hrows (hrows'.imp fun _ _ hr => hr.perm hv.symm)]

end Table

/-! Sessions -/

namespace Sql.Statement

variable {c : Catalog} {name : String} {assignments assignments' : List Assignment}
  {condition : Option Condition}

theorem run_update_perm (hc : c.WellFormed) (hp : assignments.Perm assignments')
    {ch : Change (Except Error Reply)} (h : (update name assignments condition).run c = .ok ch) :
    (update name assignments' condition).run c = .ok ch := by
  obtain ⟨d, hd, h⟩ := bind_eq_ok_iff.1 h
  obtain ⟨t, ht, h⟩ := bind_eq_ok_iff.1 h
  obtain ⟨r, hu, h⟩ := bind_eq_ok_iff.1 h
  have hu' := Table.update_perm ((hc.current hd).tables t (Database.table_eq_ok ht).1) hp hu
  rw [run, changeTable, hd, ok_bind, ht, ok_bind, hu']
  exact h

end Sql.Statement

namespace Session

variable {s : Session} {text : String} {x : Statement} {d : Database} {t t' : Table}
  {act : Table → Except Error (Table × Except Error Nat)} {reply : Table → Nat → Reply}
  {n m : Nat}

/-- Work on a table that would do nothing more once it is done changes no database and no document
when it is done again. -/
theorem execute_again (hc : s.catalog.WellFormed) (hd : s.catalog.current = .ok d)
    (ht : t ∈ d.tables) (hp : Statement.parse text = .ok x)
    (hx : ∀ c, x.run c = Statement.changeTable c t.name act reply)
    (ha : act t = .ok (t', .ok n)) (hb : t.Becomes t' n)
    (ha' : act t' = .ok (t', .ok m)) (hb' : t'.Becomes t' m)
    {answer : Reply} (h : (s.execute text).2 = .ok answer) (faults : Faults) :
    let s₁ := (s.execute text).1.setFaults faults
    s₁.Performs text s₁.catalog (reply t' m) ∧
      (s₁.execute text).1.storage.store = s₁.storage.store := by
  intro s₁
  obtain ⟨hc₁, hd₁⟩ := (performs_changeTable hc hd ht hp (hx _) ha).after hc hd faults
  have ht₁ := Database.mem_replaceTable ht hb.name
  have hsame : (d.replaceTable t').replaceTable t' = d.replaceTable t' :=
    Database.replaceTable_self (hc₁.current hd₁).nodup ht₁
  have hx₁ : ∀ c, x.run c = Statement.changeTable c t'.name act reply := hb.name ▸ hx
  constructor
  · have hperforms := performs_changeTable hc₁ hd₁ ht₁ hp (hx₁ _) ha'
    rw [Catalog.putTable, hsame, Catalog.putCurrent_current hd₁] at hperforms
    exact hperforms
  · rw [execute_changeTable hc₁ hd₁ ht₁ hp (hx₁ _) ha' hb', hsame]
    split
    · rfl
    · -- some rows were worked on again, so some were the first time, and the document was saved
      rename_i hm
      have hn : n ≠ 0 := by
        intro hn
        rw [hb.unchanged hn, ha, hn] at ha'
        cases ha'
        exact hm rfl
      have hfirst := execute_changeTable hc hd ht hp (hx _) ha hb
      rw [if_neg hn] at hfirst
      rw [hfirst] at h
      obtain ⟨_, hsave, -⟩ := map_eq_ok_iff.1 h
      change (s₁.storage.save (d.replaceTable t')).1.store = s₁.storage.store
      dsimp only [s₁]
      rw [hfirst]
      exact Storage.store_save_again hsave faults

end Session

namespace Connection

/-- In every state that a run comes to: an update that has been answered can be carried out again,
and this leaves all databases and all documents as they are, whatever is refused by then. An update
of the same assignments in another order is answered if and only if this one is, and then with the
same count, and what the two leave is the same. -/
theorem update_idempotent_and_perm {storage : Storage} {s : Session} (hs : Reaches storage s)
    {text name : String} {assignments : List Assignment} {condition : Option Condition}
    (hp : Statement.parse text = .ok (.update name assignments condition)) :
    (∀ answer, (s.execute text).2 = .ok answer → ∀ faults,
      let s₁ := (s.execute text).1.setFaults faults
      (∃ count, s₁.Performs text s₁.catalog (.updated count)) ∧
        (s₁.execute text).1.storage.store = s₁.storage.store) ∧
    ∀ text' assignments', assignments.Perm assignments' →
      Statement.parse text' = .ok (.update name assignments' condition) →
      (s.execute text').1 = (s.execute text).1 ∧
        (s.execute text').2.toOption = (s.execute text).2.toOption := by
  have hc := hs.wellFormed
  constructor
  · intro answer h faults
    obtain ⟨ch, hr⟩ := Session.exists_run hp h
    obtain ⟨d, t, values, target, hd, ht, hn, hsets, hm⟩ := Statement.exists_sets_of_run hc hr
    rw [Statement.trim_of_update hp] at hn
    subst hn
    have hwt := (hc.current hd).tables t ht
    obtain ⟨rows, hu, -⟩ := hsets.update hwt hm
    obtain ⟨_, hcount, hb⟩ := Table.update_eq_ok hwt hu
    cases hcount
    obtain ⟨m, hu'⟩ := Table.update_again hwt hu
    obtain ⟨_, hcount', hb'⟩ := Table.update_eq_ok hb.wellFormed hu'
    cases hcount'
    obtain ⟨hperforms, hstore⟩ :=
      Session.execute_again hc hd ht hp (fun _ => rfl) hu hb hu' hb' h faults
    exact ⟨⟨m, hperforms⟩, hstore⟩
  · intro text' assignments' hperm hp'
    cases hr : (Statement.update name assignments condition).run s.catalog with
    | ok ch =>
      rw [Session.execute_congr hp' hp ((Statement.run_update_perm hc hperm hr).trans hr.symm)]
      exact ⟨rfl, rfl⟩
    | error e =>
      cases hr' : (Statement.update name assignments' condition).run s.catalog with
      | ok ch =>
        rw [Statement.run_update_perm hc hperm.symm hr'] at hr
        cases hr
      | error e' =>
        rw [Session.execute_of_error hp hr, Session.execute_of_error hp' hr']
        exact ⟨rfl, rfl⟩

theorem updated_readingSteps :
    ((closed { store := .memory .empty }).run readingSteps).session?.map
      (fun s => (s.execute "UPDATE t SET A = 1, b = y WHERE a = 0;").2.toOption) =
        some (some (.updated 2)) := by
  decide +kernel

theorem update_idempotent_and_perm_of_readingSteps :
    ∃ s, (closed { store := .memory .empty }).run readingSteps = .opened s ∧
      let s₁ := (s.execute "UPDATE t SET A = 1, b = y WHERE a = 0;").1.setFaults {}
      (∃ count, s₁.Performs "UPDATE t SET A = 1, b = y WHERE a = 0;" s₁.catalog (.updated count)) ∧
        (s.execute "UPDATE t SET b = y, A = 1 WHERE a = 0;").2 = .ok (.updated 2) := by
  obtain ⟨s, hs, hu⟩ := opened_of_session? updated_readingSteps
  have hp' : Statement.parse "UPDATE t SET b = y, A = 1 WHERE a = 0;" =
      .ok (.update "t" [⟨"b", .text "y"⟩, ⟨"A", .text "1"⟩] (some ⟨"a", .text "0"⟩)) := by
    decide +kernel
  obtain ⟨hagain, hperm⟩ := update_idempotent_and_perm ⟨readingSteps, hs⟩ parse_readings
  refine ⟨s, hs, (hagain _ (toOption_eq_some_iff.1 hu) {}).1, toOption_eq_some_iff.1 ?_⟩
  exact (hperm _ _ (.swap ..) hp').2.trans hu

end Connection

end TableStore

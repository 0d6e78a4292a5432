import TableStore.Proofs.DataModel
import TableStore.Sql.Query

/-!
# Changes to a table

What inserting, updating and deleting make of a well-formed table. A row that fits its columns has
a cell for every assignment, so that an update never stops in the middle.
-/
namespace TableStore

namespace Row

theorem setCell_of_holds {columns : List Column} (hn : (columns.map Column.name).Nodup)
    {cells : List (String × Value)} (h : List.Forall₂ Column.Holds columns cells) {c : Column}
    (hc : c ∈ columns) {v : Value} (hv : c.type.stores v = true) :
    ∃ cells', setCell c.name v cells = some cells' ∧ List.Forall₂ Column.Holds columns cells' := by
  induction h with
  | nil => cases hc
  | @cons d cell ds cells hd hds ih =>
    obtain ⟨name, old⟩ := cell
    obtain ⟨rfl, ho⟩ := hd
    rw [List.map_cons, List.nodup_cons] at hn
    rw [setCell]
    rcases List.mem_cons.1 hc with rfl | hm
    · exact ⟨_, if_pos rfl, .cons ⟨rfl, hv⟩ hds⟩
    · have hne : d.name ≠ c.name := fun he => hn.1 (he ▸ List.mem_map_of_mem hm)
      obtain ⟨cells', hs, hf⟩ := ih hn.2 hm
      exact ⟨_, by rw [if_neg hne, hs, Option.map_some], .cons ⟨rfl, ho⟩ hf⟩

theorem set_of_fits {columns : List Column} (hn : (columns.map Column.name).Nodup) {r : Row}
    (h : r.Fits columns) {c : Column} (hc : c ∈ columns) {v : Value}
    (hv : c.type.stores v = true) : ∃ r', r.set c.name v = .ok r' ∧ r'.Fits columns := by
  obtain ⟨cells, hs, hf⟩ := setCell_of_holds hn h hc hv
  exact ⟨⟨cells⟩, by rw [set, hs], hf⟩

end Row

theorem Sql.Literal.isFinite_value (l : Sql.Literal) : l.value.isFinite = true := by
  cases l <;> rfl

namespace Table

/-- Every value is for a column of the table and is stored by it. -/
def Assigns (t : Table) (values : List (Column × Value)) : Prop :=
  ∀ a ∈ values, a.1 ∈ t.columns ∧ a.1.type.stores a.2 = true

theorem findColumn_eq_ok {t : Table} {name : String} {c : Column} (h : t.findColumn name = .ok c) :
    c ∈ t.columns := by
  unfold findColumn at h
  split at h
  · rename_i hc
    cases h
    exact List.mem_of_find?_eq_some hc
  · cases h

theorem resolveAssignments_eq_ok {t : Table} {assignments : List Sql.Assignment}
    {known values : List (Column × Value)} (hk : t.Assigns known)
    (h : t.resolveAssignments known assignments = .ok values) : t.Assigns values := by
  induction assignments generalizing known with
  | nil =>
    cases h
    exact hk
  | cons a as ih =>
    obtain ⟨c, hc, h⟩ := bind_eq_ok_iff.1 h
    dsimp only at h
    split at h
    · cases h
    · obtain ⟨v, hv, h⟩ := bind_eq_ok_iff.1 h
      have hs := Column.stores_of_convert a.value.isFinite_value hv
      refine ih (List.forall_mem_append.2 ⟨hk, ?_⟩) h
      simpa using ⟨findColumn_eq_ok hc, hs⟩

/-- Assignments go through in a row that fits, and it still fits. -/
theorem assign_of_fits {t : Table} (hn : t.columnNames.Nodup) {values : List (Column × Value)}
    (hv : t.Assigns values) {r : Row} (h : r.Fits t.columns) :
    (assign r values).2 = .ok () ∧ (assign r values).1.Fits t.columns := by
  induction values generalizing r with
  | nil => exact ⟨rfl, h⟩
  | cons a as ih =>
    obtain ⟨⟨hc, hs⟩, has⟩ := List.forall_mem_cons.1 hv
    obtain ⟨r', hr, hf⟩ := Row.set_of_fits hn h hc hs
    rw [assign, hr]
    exact ih has hf

/-- An update of fitting rows assigns in exactly the selected ones, and counts them. -/
theorem assignRows_of_fits {t : Table} (hn : t.columnNames.Nodup) {values : List (Column × Value)}
    (hv : t.Assigns values) (selects : Row → Bool) {rows : List Row}
    (h : ∀ r ∈ rows, r.Fits t.columns) :
    assignRows selects values rows =
      (rows.map fun r => if selects r then (assign r values).1 else r, .ok (rows.countP selects)) := by
  induction rows with
  | nil => rfl
  | cons r rs ih =>
    obtain ⟨hr, hrs⟩ := List.forall_mem_cons.1 h
    have ha : assign r values = ((assign r values).1, .ok ()) :=
      Prod.ext rfl (assign_of_fits hn hv hr).1
    rw [assignRows, ih hrs, List.map_cons, List.countP_cons]
    split
    · rw [ha]
      rfl
    · rfl

/-- What a statement that changes a table makes of it: the table stays well formed and keeps its
name, and with no row to change nothing is changed. -/
structure Becomes (t t' : Table) (count : Nat) : Prop where
  wellFormed : t'.WellFormed
  name : t'.name = t.name
  unchanged : count = 0 → t' = t

theorem insert_eq_ok {t t' : Table} (ht : t.WellFormed) {values : List Sql.Literal}
    (h : t.insert values = .ok t') : t.Becomes t' 1 := by
  unfold insert at h
  split at h
  · obtain ⟨r, hr, h⟩ := bind_eq_ok_iff.1 h
    cases h
    have hv : ∀ v ∈ t.columnNames.zip (values.map Sql.Literal.value), v.2.isFinite = true := by
      intro v hv
      obtain ⟨l, -, hl⟩ := List.mem_map.1 (List.of_mem_zip hv).2
      exact hl ▸ l.isFinite_value
    refine ⟨ht.withRows (List.forall_mem_append.2 ⟨ht.rows, ?_⟩), rfl, by simp⟩
    simpa using makeRow_eq_ok hv hr
  · cases h

theorem update_eq_ok {t : Table} (ht : t.WellFormed) {assignments : List Sql.Assignment}
    {condition : Option Sql.Condition} {r : Table × Except Error Nat}
    (h : t.update assignments condition = .ok r) :
    ∃ count, r.2 = .ok count ∧ t.Becomes r.1 count := by
  obtain ⟨values, hv, h⟩ := bind_eq_ok_iff.1 h
  obtain ⟨selects, -, h⟩ := bind_eq_ok_iff.1 h
  have ha := resolveAssignments_eq_ok (by simp [Assigns]) hv
  rw [assignRows_of_fits ht.nodup ha selects ht.rows] at h
  cases h
  refine ⟨_, rfl, ht.withRows fun r hr => ?_, rfl, fun hc => ?_⟩
  · obtain ⟨r, hm, rfl⟩ := List.mem_map.1 hr
    split
    · exact (assign_of_fits ht.nodup ha (ht.rows r hm)).2
    · exact ht.rows r hm
  · have hr : (t.rows.map fun r => if selects r then (assign r values).1 else r) = t.rows := by
      have hs : ∀ r ∈ t.rows, (if selects r then (assign r values).1 else r) = r :=
        fun r hr => if_neg (List.countP_eq_zero.1 hc r hr)
      rw [List.map_congr_left hs, List.map_id']
    rw [hr]

theorem delete_eq_ok {t : Table} (ht : t.WellFormed) {condition : Option Sql.Condition}
    {r : Table × Nat} (h : t.delete condition = .ok r) : t.Becomes r.1 r.2 := by
  obtain ⟨selects, -, h⟩ := bind_eq_ok_iff.1 h
  cases h
  refine ⟨ht.withRows fun r hr => ht.rows r (List.mem_of_mem_filter hr), rfl, fun hc => ?_⟩
  have hr : (t.rows.filter fun r => !selects r) = t.rows :=
    List.filter_eq_self.2 fun r hr => by simpa using List.countP_eq_zero.1 hc r hr
  rw [deleteRows, hr]

end Table

end TableStore

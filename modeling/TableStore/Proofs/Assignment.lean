import TableStore.Proofs.Condition
import TableStore.Proofs.Performing

/-!
# Assignments

A list of assignments gives values to distinct columns. A row that takes the values has them in
these columns and keeps all others, and an update lets exactly the rows take them that met the
condition before it.
-/
namespace TableStore

open Sql

/-! Rows -/

namespace Row

/-- The row after it takes the values: each is in its column, every other value is kept, and the
columns are the same in the same order. -/
structure Takes (values : List (Column × Value)) (r r' : Row) : Prop where
  columnNames : r'.columnNames = r.columnNames
  given : ∀ x ∈ values, (x.1.name, x.2) ∈ r'.cells
  kept : ∀ cell ∈ r.cells, (∀ x ∈ values, x.1.name ≠ cell.1) → cell ∈ r'.cells

/-- A row takes the values if it meets what is asked for, and else stays as it is. -/
def Turns (target : Option (Column × Value)) (values : List (Column × Value)) (r r' : Row) : Prop :=
  if r.Meets target then r.Takes values r' else r' = r

variable {r r' : Row} {column : String} {v : Value}

theorem setCell_eq_some {cells cells' : List (String × Value)}
    (h : setCell column v cells = some cells') :
    cells'.map Prod.fst = cells.map Prod.fst ∧ (column, v) ∈ cells' ∧
      ∀ cell ∈ cells, cell.1 ≠ column → cell ∈ cells' := by
  induction cells generalizing cells' with
  | nil => cases h
  | cons cell cells ih =>
    obtain ⟨name, old⟩ := cell
    rw [setCell] at h
    split at h
    · rename_i hn
      cases h
      refine ⟨rfl, List.mem_cons.2 (.inl (by rw [hn])), fun cell hm hne => ?_⟩
      rcases List.mem_cons.1 hm with rfl | hm
      · exact absurd hn hne
      · exact List.mem_cons_of_mem _ hm
    · obtain ⟨rest, hr, rfl⟩ := Option.map_eq_some_iff.1 h
      obtain ⟨hnames, hv, hkept⟩ := ih hr
      refine ⟨by rw [List.map_cons, hnames, List.map_cons], List.mem_cons_of_mem _ hv,
        fun cell hm hne => ?_⟩
      rcases List.mem_cons.1 hm with rfl | hm
      · exact List.mem_cons_self
      · exact List.mem_cons_of_mem _ (hkept cell hm hne)

theorem set_eq_ok (h : r.set column v = .ok r') :
    r'.columnNames = r.columnNames ∧ (column, v) ∈ r'.cells ∧
      ∀ cell ∈ r.cells, cell.1 ≠ column → cell ∈ r'.cells := by
  unfold set at h
  split at h
  · rename_i hs
    cases h
    exact setCell_eq_some hs
  · cases h

end Row

/-! Tables -/

namespace Table

variable {t : Table} {assignments : List Assignment} {values : List (Column × Value)}

/-- The assignment names the column, which reads its literal as the value. -/
def Gives (t : Table) (a : Assignment) (x : Column × Value) : Prop :=
  t.Resolves a.column x.1 ∧ x.1.convert a.value.value = .ok x.2

/-- The values that the assignments give, none of them two to one column. -/
structure Sets (t : Table) (assignments : List Assignment) (values : List (Column × Value)) :
    Prop where
  gives : List.Forall₂ t.Gives assignments values
  distinct : (values.map Prod.fst).Nodup

/-- Assignments are understood if each names a column that can read it, and no column that is
already known or named by another. -/
theorem resolveAssignments_eq_ok_iff {known : List (Column × Value)} :
    t.resolveAssignments known assignments = .ok values ↔
      ∃ new, values = known ++ new ∧
        List.Forall₂ t.Gives assignments new ∧ (new.map fun x => x.1.name).Nodup ∧
        ∀ x ∈ new, ∀ k ∈ known, k.1.name ≠ x.1.name := by
  induction assignments generalizing known with
  | nil =>
    rw [resolveAssignments]
    constructor
    · intro h
      cases h
      exact ⟨[], by simp⟩
    · rintro ⟨new, rfl, hr, -⟩
      cases hr
      rw [List.append_nil]
  | cons a as ih =>
    constructor
    · intro h
      obtain ⟨c, hc, h⟩ := bind_eq_ok_iff.1 h
      dsimp only at h
      split at h
      · cases h
      · rename_i hk
        obtain ⟨v, hv, h⟩ := bind_eq_ok_iff.1 h
        obtain ⟨new, rfl, hr, hn, hnew⟩ := ih.1 h
        refine ⟨(c, v) :: new, by simp, .cons ⟨findColumn_eq_ok_iff.1 hc, hv⟩ hr, ?_, ?_⟩
        · refine List.nodup_cons.2 ⟨fun hm => ?_, hn⟩
          obtain ⟨x, hx, he⟩ := List.mem_map.1 hm
          exact hnew x hx (c, v) (by simp) he.symm
        · rw [List.forall_mem_cons]
          refine ⟨by simpa using hk, fun x hx k hm => hnew x hx k ?_⟩
          exact List.mem_append_left _ hm
    · rintro ⟨new, rfl, hr, hn, hnew⟩
      obtain _ | @⟨_, ⟨c, v⟩, _, new, ⟨hc, hv⟩, hr⟩ := hr
      obtain ⟨hcn, hn⟩ := List.nodup_cons.1 hn
      obtain ⟨hck, hnew⟩ := List.forall_mem_cons.1 hnew
      have hany : (known.any fun k => k.1.name == c.name) = false := by simpa using hck
      rw [resolveAssignments, findColumn_eq_ok_iff.2 hc, ok_bind, hany]
      change (c.convert a.value.value >>= _) = _
      rw [hv, ok_bind]
      refine ih.2 ⟨new, by simp, hr, hn, fun x hx => ?_⟩
      refine List.forall_mem_append.2 ⟨hnew x hx, ?_⟩
      simpa using fun he => hcn (List.mem_map.2 ⟨x, hx, he.symm⟩)

theorem mem_columns_of_gives (h : List.Forall₂ t.Gives assignments values) :
    ∀ x ∈ values, x.1 ∈ t.columns := by
  induction h with
  | nil => exact List.forall_mem_nil _
  | cons hx _ ih =>
    exact List.forall_mem_cons.2 ⟨findColumn_eq_ok (findColumn_eq_ok_iff.2 hx.1), ih⟩

theorem resolveAssignments_nil_eq_ok_iff (hn : t.columnNames.Nodup) :
    t.resolveAssignments [] assignments = .ok values ↔ t.Sets assignments values := by
  have hnames : (values.map fun x => x.1.name) = (values.map Prod.fst).map Column.name := by
    rw [List.map_map]
    rfl
  rw [resolveAssignments_eq_ok_iff]
  constructor
  · rintro ⟨new, rfl, hg, hd, -⟩
    exact ⟨hg, .of_map _ (hnames ▸ hd)⟩
  · rintro ⟨hg, hd⟩
    have hm : ∀ c ∈ values.map Prod.fst, c ∈ t.columns := by
      simpa using fun c v hx => mem_columns_of_gives hg (c, v) hx
    refine ⟨values, rfl, hg, ?_, by simp⟩
    rw [hnames]
    exact hd.map_on fun c hc c' hc' he => List.inj_on_of_nodup_map hn (hm c hc) (hm c' hc') he

/-- A row that fits takes all the values, one after the other. -/
theorem takes_assign (hn : t.columnNames.Nodup) (hv : t.Assigns values)
    (hd : (values.map fun x => x.1.name).Nodup) {r : Row} (hr : r.Fits t.columns) :
    r.Takes values (assign r values).1 := by
  induction values generalizing r with
  | nil => exact ⟨rfl, List.forall_mem_nil _, fun _ hm _ => hm⟩
  | cons x xs ih =>
    obtain ⟨c, v⟩ := x
    obtain ⟨⟨hc, hs⟩, hxs⟩ := List.forall_mem_cons.1 hv
    obtain ⟨hcn, hd⟩ := List.nodup_cons.1 hd
    obtain ⟨r', hset, hf⟩ := Row.set_of_fits hn hr hc hs
    obtain ⟨hnames, hgiven, hkept⟩ := Row.set_eq_ok hset
    have h := ih hxs hd hf
    rw [assign, hset]
    refine ⟨h.columnNames.trans hnames, List.forall_mem_cons.2 ⟨?_, h.given⟩, fun cell hm hne => ?_⟩
    · -- the later values are for other columns
      refine h.kept _ hgiven fun x hx he => hcn ?_
      exact List.mem_map.2 ⟨x, hx, he⟩
    · obtain ⟨hcell, hne⟩ := List.forall_mem_cons.1 hne
      exact h.kept cell (hkept cell hm (Ne.symm hcell)) hne

theorem Sets.assigns (hs : t.Sets assignments values) (hn : t.columnNames.Nodup) :
    t.Assigns values :=
  resolveAssignments_eq_ok (by simp [Assigns]) ((resolveAssignments_nil_eq_ok_iff hn).2 hs)

theorem Sets.withRows (h : t.Sets assignments values) (rows : List Row) :
    { t with rows := rows }.Sets assignments values :=
  ⟨h.gives, h.distinct⟩

theorem Sets.nodup_names (hs : t.Sets assignments values) (hn : t.columnNames.Nodup) :
    (values.map fun x => x.1.name).Nodup := by
  obtain ⟨new, rfl, -, hd, -⟩ :=
    resolveAssignments_eq_ok_iff.1 ((resolveAssignments_nil_eq_ok_iff hn).2 hs)
  exact hd

/-- Where the assignments give values and the condition means something, the rows turn to what the
two say, and those that meet the condition are counted. -/
theorem Sets.update (hs : t.Sets assignments values) (ht : t.WellFormed)
    {condition : Option Condition} {target : Option (Column × Value)}
    (hm : t.Means condition target) :
    ∃ rows, t.update assignments condition =
        .ok ({ t with rows := rows }, .ok (t.rows.filter fun r => r.Meets target).length) ∧
      List.Forall₂ (Row.Turns target values) t.rows rows := by
  obtain ⟨selects, hsel, hr⟩ := hm.selector ht
  have hv := hs.assigns ht.nodup
  refine ⟨t.rows.map fun r => if selects r then (assign r values).1 else r, ?_, ?_⟩
  · rw [Table.update, (resolveAssignments_nil_eq_ok_iff ht.nodup).2 hs, ok_bind, hsel, ok_bind,
      assignRows_of_fits ht.nodup hv selects ht.rows, countP_of_meets hr]
    rfl
  · rw [List.forall₂_map_right_iff, List.forall₂_same]
    intro r hrow
    rw [Row.Turns, hr r hrow]
    split
    · rw [if_pos (by simpa)]
      exact takes_assign ht.nodup hv (hs.nodup_names ht.nodup) (ht.rows r hrow)
    · rw [if_neg (by simpa)]

/-- An update that goes through has understood its assignments and its condition. -/
theorem exists_sets_of_update (ht : t.WellFormed) {condition : Option Condition}
    {r : Table × Except Error Nat} (h : t.update assignments condition = .ok r) :
    ∃ values target, t.Sets assignments values ∧ t.Means condition target := by
  obtain ⟨values, hv, h⟩ := bind_eq_ok_iff.1 h
  obtain ⟨selects, hs, -⟩ := bind_eq_ok_iff.1 h
  obtain ⟨target, hm⟩ := exists_means hs
  exact ⟨values, target, (resolveAssignments_nil_eq_ok_iff ht.nodup).1 hv, hm⟩

end Table

namespace Sql.Statement

variable {name : String} {assignments : List Assignment} {condition : Option Condition}

theorem trim_of_update {text : String}
    (h : Statement.parse text = .ok (.update name assignments condition)) :
    Text.trim name = name := by
  have hl := (isPrintable_of_parse h).lexemes (.name name) (by simp [lexemes, body])
  exact trim_of_isWord hl

/-- An update that is carried out has found its table and understood what it says of it. -/
theorem exists_sets_of_run {c : Catalog} (hc : c.WellFormed) {ch : Change (Except Error Reply)}
    (hr : (update name assignments condition).run c = .ok ch) :
    ∃ d t values target, c.current = .ok d ∧ t ∈ d.tables ∧ t.name = Text.trim name ∧
      t.Sets assignments values ∧ t.Means condition target := by
  obtain ⟨d, hd, hr⟩ := bind_eq_ok_iff.1 hr
  obtain ⟨t, htable, hr⟩ := bind_eq_ok_iff.1 hr
  obtain ⟨r, hu, -⟩ := bind_eq_ok_iff.1 hr
  obtain ⟨ht, hn⟩ := Database.table_eq_ok htable
  obtain ⟨values, target, hsets, hm⟩ := Table.exists_sets_of_update ((hc.current hd).tables t ht) hu
  exact ⟨d, t, values, target, hd, ht, hn, hsets, hm⟩

end Sql.Statement

namespace Connection

/-- In every state that a run comes to, an update is carried out in memory if and only if the
selected database has the table, every assignment names a column that reads its literal, no two of
them the same column, and so does the condition. Then exactly the rows that meet the condition
before the update take the values of the assignments, and the reply counts them; the other rows, the
order of all rows and everything else stay as they are. -/
theorem update_exact {storage : Storage} {s : Session} (hs : Reaches storage s)
    {text name : String} {assignments : List Assignment} {condition : Option Condition}
    (hp : Statement.parse text = .ok (.update name assignments condition)) :
    ((∃ c reply, s.Performs text c reply) ↔
      ∃ d t values target, s.catalog.current = .ok d ∧ t ∈ d.tables ∧ t.name = name ∧
        t.Sets assignments values ∧ t.Means condition target) ∧
    ∀ d t values target, s.catalog.current = .ok d → t ∈ d.tables → t.name = name →
      t.Sets assignments values → t.Means condition target →
      ∃ rows, List.Forall₂ (Row.Turns target values) t.rows rows ∧
        s.Performs text (s.catalog.putTable d { t with rows := rows })
          (.updated (t.rows.filter fun r => r.Meets target).length) := by
  have hc := hs.wellFormed
  have heffect : ∀ d t values target, s.catalog.current = .ok d → t ∈ d.tables → t.name = name →
      t.Sets assignments values → t.Means condition target →
      ∃ rows, List.Forall₂ (Row.Turns target values) t.rows rows ∧
        s.Performs text (s.catalog.putTable d { t with rows := rows })
          (.updated (t.rows.filter fun r => r.Meets target).length) := by
    rintro d t values target hd ht rfl hsets hm
    obtain ⟨rows, hu, hrows⟩ := hsets.update ((hc.current hd).tables t ht) hm
    exact ⟨rows, hrows, Session.performs_changeTable hc hd ht hp rfl hu⟩
  refine ⟨⟨?_, ?_⟩, heffect⟩
  · rintro ⟨c, reply, h⟩
    obtain ⟨ch, hr⟩ := h.run hp
    obtain ⟨d, t, values, target, hd, ht, hn, hsets, hm⟩ := Statement.exists_sets_of_run hc hr
    exact ⟨d, t, values, target, hd, ht, hn.trans (Statement.trim_of_update hp), hsets, hm⟩
  · rintro ⟨d, t, values, target, hd, ht, hn, hsets, hm⟩
    obtain ⟨rows, -, h⟩ := heffect d t values target hd ht hn hsets hm
    exact ⟨_, _, h⟩

/-- Readings of which two are zero, one of them below zero. -/
def readings : Table :=
  ⟨"t", [⟨"a", .double⟩, ⟨"B", .string⟩],
    [⟨[("a", .float (.zero true)), ("B", .string "x")]⟩,
      ⟨[("a", .float (.zero false)), ("B", .null)]⟩,
      ⟨[("a", .float (.ofInt 1)), ("B", .string "x")]⟩]⟩

def readingSteps : List (Faults × Action) :=
  [({}, .reopen), ({}, .session (.execute "CREATE DATABASE d;")),
    ({}, .session (.execute "USE d;")),
    ({}, .session (.execute "CREATE TABLE t (a DOUBLE, B STRING);")),
    ({}, .session (.execute "INSERT INTO t VALUES (-0, x);")),
    ({}, .session (.execute "INSERT INTO t VALUES (0, NULL);")),
    ({}, .session (.execute "INSERT INTO t VALUES (1, x);"))]

theorem current_readingSteps :
    ((closed { store := .memory .empty }).run readingSteps).session?.map
      (fun s => s.catalog.current.toOption) = some (some ⟨"d", [readings]⟩) := by
  decide +kernel

theorem run_readingSteps : ∃ s, (closed { store := .memory .empty }).run readingSteps = .opened s ∧
    s.catalog.current = .ok ⟨"d", [readings]⟩ := by
  obtain ⟨s, hs, hd⟩ := opened_of_session? current_readingSteps
  exact ⟨s, hs, toOption_eq_some_iff.1 hd⟩

theorem sets_readings : readings.Sets [⟨"A", .text "1"⟩, ⟨"b", .text "y"⟩]
    [(⟨"a", .double⟩, .float (.ofInt 1)), (⟨"B", .string⟩, .string "y")] where
  gives := .cons ⟨Table.findColumn_eq_ok_iff.1 rfl, by decide +kernel⟩
    (.cons ⟨Table.findColumn_eq_ok_iff.1 rfl, by decide +kernel⟩ .nil)
  distinct := by decide

theorem means_readings : readings.Means (some ⟨"a", .text "0"⟩)
    (some (⟨"a", .double⟩, .float (.zero false))) :=
  .value (Table.findColumn_eq_ok_iff.1 rfl) (by decide +kernel)

theorem parse_readings : Statement.parse "UPDATE t SET A = 1, b = y WHERE a = 0;" =
    .ok (.update "t" [⟨"A", .text "1"⟩, ⟨"b", .text "y"⟩] (some ⟨"a", .text "0"⟩)) := by
  decide +kernel

theorem update_exact_of_readingSteps :
    ∃ s, (closed { store := .memory .empty }).run readingSteps = .opened s ∧
      ∃ rows, List.Forall₂ (Row.Turns (some (⟨"a", .double⟩, .float (.zero false)))
          [(⟨"a", .double⟩, .float (.ofInt 1)), (⟨"B", .string⟩, .string "y")]) readings.rows rows ∧
        s.Performs "UPDATE t SET A = 1, b = y WHERE a = 0;"
          (s.catalog.putTable ⟨"d", [readings]⟩ { readings with rows := rows }) (.updated 2) := by
  obtain ⟨s, hs, hd⟩ := run_readingSteps
  have hcount : (readings.rows.filter fun r =>
      r.Meets (some (⟨"a", .double⟩, .float (.zero false)))).length = 2 := by
    decide +kernel
  obtain ⟨rows, hrows, h⟩ := (update_exact ⟨readingSteps, hs⟩ parse_readings).2 _ _ _ _ hd
    (List.mem_singleton_self _) rfl sets_readings means_readings
  rw [hcount] at h
  exact ⟨s, hs, rows, hrows, h⟩

end Connection

end TableStore

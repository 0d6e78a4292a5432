import TableStore.Reply

/-!
# Tables read back

The text of a table is divided by line feeds into lines, and a line into cells wherever a bar stands
between two tabs. The first line has the columns, the second is a rule, the last counts the rows,
and each line between them has the cells of one row. So nothing that a cell shows can be taken for
one of the other lines, and two tables with one text show the same.
-/
namespace TableStore.Reply

/-! Reading -/

def lines (text : String) : List String := (text.toList.splitOn '\n').map String.ofList

/-- A line divided wherever a bar stands between two tabs. -/
def divide : List Char → List (List Char)
  | [] => [[]]
  | '\t' :: '|' :: '\t' :: rest => [] :: divide rest
  | c :: rest => (divide rest).modifyHead (c :: ·)

def cells (line : String) : List String := (divide line.toList).map String.ofList

/-- The columns that a text shows, and the cells of its rows. -/
def readTable (text : String) : List String × List (List String) :=
  let shown := (lines text).map cells
  (shown.headD [], (shown.drop 2).dropLast)

/-- What can be shown in a cell: nothing in it divides a line or ends it. -/
structure IsPlain (s : String) : Prop where
  noTab : '\t' ∉ s.toList
  noFeed : '\n' ∉ s.toList

instance (s : String) : Decidable (IsPlain s) :=
  decidable_of_iff ('\t' ∉ s.toList ∧ '\n' ∉ s.toList) ⟨fun h => ⟨h.1, h.2⟩, fun h => ⟨h.1, h.2⟩⟩

/-- A table with a column at least, a value for each column in every row, and nothing in names and
values that divides a line or ends it. -/
structure IsLegible (columns : List String) (rows : List (List Value)) : Prop where
  ne_nil : columns ≠ []
  names : ∀ c ∈ columns, IsPlain c
  width : ∀ r ∈ rows, r.length = columns.length
  values : ∀ r ∈ rows, ∀ v ∈ r, IsPlain v.text

/-- The values of each row as they are shown. -/
def shownRows (rows : List (List Value)) : List (List String) := rows.map fun r => r.map Value.text

/-- The last line of a table. -/
def footer (n : Nat) : String := if n = 0 then "0 rows returned." else "(" ++ countRows n ++ ")"

def tableLines (columns : List String) (rows : List (List Value)) : List String :=
  line columns :: rule columns :: ((shownRows rows).map line ++ [footer rows.length])

/-! Cells -/

theorem divide_append {w : List Char} (h : '\t' ∉ w) (rest : List Char) :
    divide (w ++ rest) = (divide rest).modifyHead (w ++ ·) := by
  induction w with
  | nil => cases hd : divide rest <;> simp [hd]
  | cons c w ih =>
    rw [List.mem_cons, not_or] at h
    have hc : divide (c :: (w ++ rest)) = (divide (w ++ rest)).modifyHead (c :: ·) := by
      rw [divide]
      rintro _ rfl
      exact absurd rfl h.1
    rw [List.cons_append, hc, ih h.2]
    cases divide rest <;> rfl

theorem divide_of_not_mem {w : List Char} (h : '\t' ∉ w) : divide w = [w] := by
  have hd := divide_append h []
  rwa [List.append_nil, divide, List.modifyHead_cons, List.append_nil] at hd

/-- A cell ends where a bar between two tabs follows it, as it has no tab in it. -/
theorem divide_append_bar {w : List Char} (h : '\t' ∉ w) (rest : List Char) :
    divide (w ++ ("\t|\t".toList ++ rest)) = w :: divide rest := by
  rw [divide_append h]
  exact congrArg (· :: divide rest) (List.append_nil w)

theorem divide_intercalate {ws : List (List Char)} (hne : ws ≠ []) (h : ∀ w ∈ ws, '\t' ∉ w) :
    divide ("\t|\t".toList.intercalate ws) = ws := by
  induction ws with
  | nil => exact absurd rfl hne
  | cons w ws ih =>
    rw [List.forall_mem_cons] at h
    cases ws with
    | nil => rw [List.intercalate_singleton, divide_of_not_mem h.1]
    | cons w' ws =>
      rw [List.intercalate_cons_cons, List.append_assoc, divide_append_bar h.1,
        ih (List.cons_ne_nil _ _) h.2]

theorem map_ofList_toList (ss : List String) : (ss.map String.toList).map String.ofList = ss := by
  simp [Function.comp_def]

theorem cells_line {ws : List String} (hne : ws ≠ []) (h : ∀ w ∈ ws, IsPlain w) :
    cells (line ws) = ws := by
  rw [cells, line, String.toList_intercalate, divide_intercalate (by simpa using hne),
    map_ofList_toList]
  exact List.forall_mem_map.2 fun w hw => (h w hw).noTab

/-! Lines -/

theorem intercalate_lines (s : String) (ls : List String) (e : String) :
    s ++ (String.join (ls.map ("\n" ++ ·)) ++ ("\n" ++ e)) = "\n".intercalate (s :: (ls ++ [e])) := by
  induction ls generalizing s with
  | nil => simp [String.append_assoc]
  | cons l ls ih =>
    rw [List.map_cons, String.join_cons, List.cons_append, String.intercalate_cons_cons, ← ih]
    simp [String.append_assoc]

theorem table_of_ne_nil {columns : List String} {rows : List (List Value)} (h : rows ≠ []) :
    table columns rows = line columns ++ "\n" ++ rule columns ++
      (String.join (rows.map fun r => "\n" ++ line (r.map Value.text)) ++
        "\n(" ++ countRows rows.length ++ ")") := by
  rw [table, if_neg (by simpa using h)]

/-- The text of a table is that of its lines, with a line feed between each and the next. -/
theorem table_eq_intercalate (columns : List String) (rows : List (List Value)) :
    table columns rows = "\n".intercalate (tableLines columns rows) := by
  have hbody : table columns rows = line columns ++ "\n" ++ (rule columns ++
      (String.join (((shownRows rows).map line).map ("\n" ++ ·)) ++ ("\n" ++ footer rows.length))) := by
    by_cases h : rows = []
    · subst h
      simp [table, footer, shownRows, String.append_assoc]
    · have hp : "\n(" = "\n" ++ "(" := rfl
      rw [table_of_ne_nil h, footer, if_neg (by simpa using h), shownRows, List.map_map, List.map_map,
        hp]
      simp only [String.append_assoc, Function.comp_def]
  rw [hbody, tableLines, String.intercalate_cons_cons, intercalate_lines]

theorem mem_intercalate {c : Char} {sep : List Char} {ws : List (List Char)}
    (h : c ∈ sep.intercalate ws) : c ∈ sep ∨ ∃ w ∈ ws, c ∈ w := by
  induction ws with
  | nil => simp at h
  | cons w ws ih =>
    cases ws with
    | nil => exact .inr ⟨w, by simp, by simpa using h⟩
    | cons w' ws =>
      rw [List.intercalate_cons_cons, List.mem_append, List.mem_append] at h
      rcases h with (h | h) | h
      · exact .inr ⟨w, by simp, h⟩
      · exact .inl h
      · exact (ih h).imp_right fun ⟨v, hv, hc⟩ => ⟨v, List.mem_cons_of_mem _ hv, hc⟩

theorem feed_notMem_line {ws : List String} (h : ∀ w ∈ ws, IsPlain w) :
    '\n' ∉ (line ws).toList := by
  rw [line, String.toList_intercalate]
  intro hm
  rcases mem_intercalate hm with hm | ⟨w, hw, hm⟩
  · exact absurd hm (by decide)
  · obtain ⟨s, hs, rfl⟩ := List.mem_map.1 hw
    exact (h s hs).noFeed hm

theorem feed_notMem_rule (columns : List String) : '\n' ∉ (rule columns).toList := by
  simp [rule, String.toList_join]

theorem feed_notMem_footer (n : Nat) : '\n' ∉ (footer n).toList := by
  have hn : '\n' ∉ Nat.toDigits 10 n := by
    intro hm
    exact absurd (Nat.isDigit_of_mem_toDigits (by omega) (by omega) hm) (by decide)
  unfold footer countRows
  split
  · decide
  · split <;> simp [hn]

namespace IsLegible

variable {columns : List String} {rows : List (List Value)}

theorem isPlain_of_mem (h : IsLegible columns rows) {ws : List String} (hw : ws ∈ shownRows rows) :
    ∀ w ∈ ws, IsPlain w := by
  obtain ⟨r, hr, rfl⟩ := List.mem_map.1 hw
  exact List.forall_mem_map.2 (h.values r hr)

theorem ne_nil_of_mem (h : IsLegible columns rows) {ws : List String} (hw : ws ∈ shownRows rows) :
    ws ≠ [] := by
  obtain ⟨r, hr, rfl⟩ := List.mem_map.1 hw
  have hl := h.width r hr
  have hc := List.length_pos_iff.2 h.ne_nil
  rw [← hl, List.length_pos_iff] at hc
  simpa using hc

theorem lines_table (h : IsLegible columns rows) :
    lines (table columns rows) = tableLines columns rows := by
  have hf : ∀ l ∈ tableLines columns rows, '\n' ∉ l.toList := by
    rw [tableLines, List.forall_mem_cons, List.forall_mem_cons, List.forall_mem_append,
      List.forall_mem_map, List.forall_mem_singleton]
    exact ⟨feed_notMem_line h.names, feed_notMem_rule columns,
      fun ws hw => feed_notMem_line (h.isPlain_of_mem hw), feed_notMem_footer _⟩
  have hs : ((tableLines columns rows).map String.toList) ≠ [] := by simp [tableLines]
  have hfeed : "\n".toList = ['\n'] := rfl
  rw [lines, table_eq_intercalate, String.toList_intercalate, hfeed,
    List.splitOn_intercalate '\n' (List.forall_mem_map.2 hf) hs, map_ofList_toList]

theorem cells_columns (h : IsLegible columns rows) : cells (line columns) = columns :=
  cells_line h.ne_nil h.names

theorem cells_row (h : IsLegible columns rows) {ws : List String} (hw : ws ∈ shownRows rows) :
    cells (line ws) = ws :=
  cells_line (h.ne_nil_of_mem hw) (h.isPlain_of_mem hw)

theorem readTable_table (h : IsLegible columns rows) :
    readTable (table columns rows) = (columns, shownRows rows) := by
  have hb : ((shownRows rows).map line).map cells = shownRows rows := by
    rw [List.map_map]
    exact (List.map_congr_left fun ws hw => h.cells_row hw).trans (List.map_id _)
  rw [readTable, h.lines_table, tableLines]
  simp only [List.map_cons, List.map_append, List.map_nil, List.headD_cons, List.drop_succ_cons,
    List.drop_zero, List.dropLast_concat, h.cells_columns, hb]

end IsLegible

/-- The text of a table that is legible falls into its lines: the columns, a rule, each row, and the
count of the rows; and the lines of columns and rows fall into their cells. So from the text alone
the columns and what is shown of each row can be read, and another legible table has the same text
only if it shows the same. -/
theorem text_selected_exact {columns : List String} {rows : List (List Value)}
    (h : IsLegible columns rows) :
    lines (selected columns rows).text =
      [line columns, rule columns] ++ (shownRows rows).map line ++ [footer rows.length] ∧
    cells (line columns) = columns ∧
    (∀ ws ∈ shownRows rows, cells (line ws) = ws) ∧
    readTable (selected columns rows).text = (columns, shownRows rows) ∧
    ∀ columns' rows', IsLegible columns' rows' →
      (selected columns' rows').text = (selected columns rows).text →
        columns' = columns ∧ rows'.length = rows.length ∧ shownRows rows' = shownRows rows := by
  refine ⟨h.lines_table, h.cells_columns, fun ws hw => h.cells_row hw, h.readTable_table,
    fun columns' rows' h' ht => ?_⟩
  have hr : (columns', shownRows rows') = (columns, shownRows rows) :=
    calc (columns', shownRows rows')
      _ = readTable (selected columns' rows').text := h'.readTable_table.symm
      _ = readTable (selected columns rows).text := by rw [ht]
      _ = (columns, shownRows rows) := h.readTable_table
  obtain ⟨hc, hs⟩ := Prod.mk.inj hr
  refine ⟨hc, ?_, hs⟩
  simpa [shownRows] using congrArg List.length hs

/-- Rows that look like the rule, the line of columns and the last line of a table, and a row of
nothing but an empty cell. -/
theorem text_selected_exact_lookalikes :
    IsLegible ["a"] [[.string "----"], [.string "a"], [.string "(3 rows)"], [.string ""]] ∧
      lines (selected ["a"]
        [[.string "----"], [.string "a"], [.string "(3 rows)"], [.string ""]]).text =
          ["a", "----", "----", "a", "(3 rows)", "", "(4 rows)"] := by
  have h : IsLegible ["a"] [[.string "----"], [.string "a"], [.string "(3 rows)"], [.string ""]] :=
    ⟨by decide, by decide, by decide, by decide⟩
  refine ⟨h, (text_selected_exact h).1.trans ?_⟩
  decide +kernel

end TableStore.Reply

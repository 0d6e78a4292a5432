import TableStore.Proofs.Parsing

/-!
# Literals without quotes

Wherever a statement has a literal, a text without quotes stands for itself, less the white space
around it, just as if it were in quotes; only `NULL` and white space alone do not. The statement
around the literal is a gap: it says what is laid out in front of the literal and after it.
-/
namespace TableStore.Sql

open Text

variable {α : Type}

/-! Gaps -/

/-- A statement in which one literal is left out. -/
inductive Gap where
  | value (table : String) (before after : List Literal)
  | assigned (table : String) (before : List Assignment) (column : String)
    (after : List Assignment) (condition : Option Condition)
  | selected (table : String) (columns : Option (List String)) (column : String)
  | updated (table : String) (assignments : List Assignment) (column : String)
  | deleted (table : String) (column : String)

/-- Items with a comma after each. -/
def ended (lexemes : α → List Lexeme) (xs : List α) : List Lexeme :=
  xs.flatMap fun x => lexemes x ++ [.token .comma]

/-- Items with a comma in front of each. -/
def continued (lexemes : α → List Lexeme) (xs : List α) : List Lexeme :=
  xs.flatMap fun x => .token .comma :: lexemes x

/-- The condition on a column up to its literal. -/
def Condition.opening (column : String) : List Lexeme :=
  [.token (.keyword .where), .name column, .token .equal]

namespace Gap

def slot : Gap → Slot
  | value _ _ _ => .listItem
  | assigned _ _ _ _ _ => .assignment
  | selected _ _ _ | updated _ _ _ | deleted _ _ => .condition

/-- The statement with the literal in its place. -/
def fill : Gap → Literal → Statement
  | value table before after, l => .insert table (before ++ l :: after)
  | assigned table before column after condition, l =>
    .update table (before ++ ⟨column, l⟩ :: after) condition
  | selected table columns column, l => .select table columns (some ⟨column, l⟩)
  | updated table assignments column, l => .update table assignments (some ⟨column, l⟩)
  | deleted table column, l => .delete table (some ⟨column, l⟩)

/-- What stands between the command and the literal. -/
def opening : Gap → List Lexeme
  | value table before _ =>
    [.token (.keyword .into), .name table, .token (.keyword .values), .token .openParen] ++
      ended (fun l => [.literal .listItem l]) before
  | assigned table before column _ _ =>
    [.name table, .token (.keyword .set)] ++ ended Assignment.lexemes before ++
      [.name column, .token .equal]
  | selected table columns column =>
    selectionLexemes columns ++ [.token (.keyword .from), .name table] ++
      Condition.opening column
  | updated table assignments column =>
    [.name table, .token (.keyword .set)] ++ separated Assignment.lexemes assignments ++
      Condition.opening column
  | deleted table column => [.token (.keyword .from), .name table] ++ Condition.opening column

/-- What stands in front of the literal. -/
def front (g : Gap) : List Lexeme := .token (.keyword (g.fill .null).command) :: g.opening

/-- What stands after the literal. -/
def back : Gap → List Lexeme
  | value _ _ after =>
    continued (fun l => [.literal .listItem l]) after ++ [.token .closeParen, .token .semicolon]
  | assigned _ _ _ after condition =>
    continued Assignment.lexemes after ++ Condition.lexemes condition ++ [.token .semicolon]
  | selected _ _ _ | updated _ _ _ | deleted _ _ => [.token .semicolon]

/-- The two texts are written for what stands in front of the literal and after it. -/
structure Surrounds (g : Gap) (left right : String) : Prop where
  items : (g.fill .null).HasItems
  front : Laid Spells g.front left.toList []
  back : ∃ rest, Laid Spells g.back right.toList rest ∧ ∀ c ∈ rest, isBlank c = true

end Gap

/-- A word at the start of the second text does not touch the first: white space stands between
them, or there is nothing in front of the word. -/
def AreApart (w right : List Char) : Prop := EndsWord right ∨ endsBlank true w = true

/-- The literal that a text stands for without quotes. -/
def Literal.ofWords (s : String) : Literal :=
  if sameAsciiLetters s "null" then .null else .text s

/-! Statements with a gap -/

theorem separated_eq_continued (lexemes : α → List Lexeme) (x : α) (ys : List α) :
    separated lexemes (x :: ys) = lexemes x ++ continued lexemes ys := by
  induction ys generalizing x with
  | nil => simp [separated_singleton, continued]
  | cons y ys ih =>
    rw [separated_cons lexemes x (by simp), ih y]
    simp [continued]

theorem separated_append_cons (lexemes : α → List Lexeme) (xs : List α) (x : α) (ys : List α) :
    separated lexemes (xs ++ x :: ys) =
      ended lexemes xs ++ (lexemes x ++ continued lexemes ys) := by
  induction xs with
  | nil => exact separated_eq_continued lexemes x ys
  | cons z xs ih =>
    rw [List.cons_append, separated_cons lexemes z (by simp), ih]
    simp [ended]

namespace Gap

theorem command_fill (g : Gap) (l l' : Literal) : (g.fill l).command = (g.fill l').command := by
  cases g <;> rfl

theorem hasItems_fill {g : Gap} {l : Literal} (h : (g.fill l).HasItems) (l' : Literal) :
    (g.fill l').HasItems := by
  cases g with
  | value table before after => simp [fill, Statement.HasItems]
  | assigned table before column after condition => simp [fill, Statement.HasItems]
  | selected table columns column =>
    cases columns with
    | none => trivial
    | some names => exact h
  | updated table assignments column => exact h
  | deleted table column => trivial

theorem lexemes_fill (g : Gap) (l : Literal) :
    (g.fill l).lexemes = g.front ++ .literal g.slot l :: g.back := by
  rw [Statement.lexemes, front, command_fill g l .null]
  cases g <;>
    simp [fill, opening, back, slot, Statement.body, valueLexemes, separated_append_cons,
      Condition.lexemes, Condition.opening, Assignment.lexemes]

/-- A sign stands right in front of the literal. -/
theorem exists_front (g : Gap) : ∃ ls t, g.front = ls ++ [.token t] ∧ ∀ k, t ≠ .keyword k := by
  have hlast : ∃ t, g.front.getLast? = some (.token t) ∧ ∀ k, t ≠ .keyword k := by
    cases g with
    | value table before after =>
      rcases List.eq_nil_or_concat before with rfl | ⟨ls, l, rfl⟩
      · exact ⟨.openParen, rfl, by simp⟩
      · exact ⟨.comma, by simp [front, opening, ended, List.getLast?_cons], by simp⟩
    | _ =>
      exact ⟨.equal, by simp [front, opening, Condition.opening, List.getLast?_cons], by simp⟩
  obtain ⟨t, ht, hk⟩ := hlast
  obtain ⟨ls, hls⟩ := List.getLast?_eq_some_iff.1 ht
  exact ⟨ls, t, hls, hk⟩

theorem exists_back (g : Gap) : ∃ t ls, g.back = .token t :: ls ∧ g.slot.EndsAt (.token t) := by
  cases g with
  | value table before after =>
    cases after with
    | nil => exact ⟨_, _, rfl, .inr rfl⟩
    | cons l ls => exact ⟨_, _, rfl, .inl rfl⟩
  | assigned table before column after condition =>
    cases after with
    | nil =>
      cases condition with
      | none => exact ⟨_, _, rfl, .inr (.inr rfl)⟩
      | some c => exact ⟨_, _, rfl, .inr (.inl rfl)⟩
    | cons a as => exact ⟨_, _, rfl, .inl rfl⟩
  | _ => exact ⟨_, _, rfl, rfl⟩

theorem Surrounds.laid_front {g : Gap} {left right : String} (h : g.Surrounds left right)
    (more : List Char) : Laid Spells g.front (left.toList ++ more) more := by
  obtain ⟨ls, t, hf, ht⟩ := g.exists_front
  have hl := h.front
  rw [hf] at hl ⊢
  exact hl.append_of_sign ht more

end Gap

/-! Texts that are literals -/

theorem exists_trim (w : String) : ∃ lead trail, w.toList = lead ++ ((trim w).toList ++ trail) ∧
    (∀ b ∈ lead, isBlank b = true) ∧ ∀ b ∈ trail, isBlank b = true := by
  obtain ⟨trail, hw, ht⟩ := exists_dropTrailingBlanks (skipBlanks w.toList)
  refine ⟨w.toList.takeWhile isBlank, trail, ?_, fun b => List.mem_takeWhile_imp, ht⟩
  rw [trim, String.toList_ofList, ← hw]
  exact List.takeWhile_append_dropWhile.symm

/-- What can be a literal without quotes can be one without the white space around it. -/
theorem Slot.Admits.inner {slot : Slot} {lead v trail : List Char}
    (h : slot.Admits (lead ++ (v ++ trail))) (hl : ∀ b ∈ lead, isBlank b = true)
    (ht : ∀ b ∈ trail, isBlank b = true) : slot.Admits v := by
  refine ⟨fun hm => h.noQuote (by simp [hm]), fun c hm => h.noStop c (by simp [hm]), ?_⟩
  rintro hslot p q rfl hp
  rw [← startsWithKeyword_append .where q (endsWord_of_blanks ht)]
  refine h.noWhere hslot (lead ++ p) (q ++ trail) (by simp) fun c hc => ?_
  by_cases hne : p = []
  · rw [hne, List.append_nil] at hc
    exact hl c (List.mem_of_getLast? hc)
  · rw [List.getLast?_append_of_ne_nil lead hne] at hc
    exact hp c hc

/-- The white space that parts a literal from a word after it may stand on either side. -/
theorem AreApart.endsWord {lead v trail right : List Char}
    (h : AreApart (lead ++ (v ++ trail)) right) (hne : v ≠ []) (hv : dropTrailingBlanks v = v)
    (ht : ∀ b ∈ trail, isBlank b = true) : EndsWord (trail ++ right) := by
  cases trail with
  | cons d trail => exact endsWord_cons.2 (isWordChar_of_isBlank (ht d (by simp)))
  | nil =>
    refine h.resolve_right fun hb => ?_
    have hlast : isBlank (v.getLast hne) = false := by
      simpa using List.rdropWhile_eq_self_iff.1 hv hne
    rw [List.append_nil, endsBlank, List.getLast?_append_of_ne_nil lead hne,
      List.getLast?_eq_getLast_of_ne_nil hne, Option.elim_some, hlast] at hb
    cases hb

theorem Slot.admits_iff {slot : Slot} {w : List Char} : slot.Admits w ↔
    '"' ∉ w ∧ (w.all fun c => !slot.stopsAt c) = true ∧ (slot = .assignment →
      ∀ i ∈ List.range (w.length + 1), (w.take i).getLast?.all isBlank = true →
        startsWithKeyword .where (w.drop i) = false) := by
  have hstop : (w.all fun c => !slot.stopsAt c) = true ↔ ∀ c ∈ w, slot.stopsAt c = false := by
    simp [List.all_eq_true]
  rw [hstop]
  constructor
  · intro h
    refine ⟨h.noQuote, h.noStop, fun hs i _ hl => ?_⟩
    exact h.noWhere hs _ _ (List.take_append_drop i w).symm (Option.all_eq_true _ _ |>.1 hl)
  · rintro ⟨hq, hc, hk⟩
    refine ⟨hq, hc, ?_⟩
    rintro hs p q rfl hp
    have hl : ((p ++ q).take p.length).getLast?.all isBlank = true := by
      rw [List.take_left]
      exact (Option.all_eq_true _ _).2 hp
    have hk := hk hs p.length (List.mem_range.2 (Nat.lt_succ_of_le (by simp))) hl
    rwa [List.drop_left] at hk

instance (slot : Slot) (w : List Char) : Decidable (slot.Admits w) :=
  decidable_of_iff _ Slot.admits_iff.symm

theorem spells_ofWords {slot : Slot} {s : String} {after : List Char} (hs : IsProper s)
    (hb : slot.Admits s.toList) (ha : EndsWord after) :
    Spells (.literal slot (.ofWords s)) s.toList after := by
  unfold Literal.ofWords
  split
  · rename_i hn
    exact .null (by rwa [String.ofList_toList]) ha
  · rename_i hn
    exact .bare hs (eq_false_of_ne_true hn) hb ha

theorem laid_ofWords {slot : Slot} {w : String} {n : Lexeme} {ls : List Lexeme}
    {right rest : List Char} (hw : slot.Admits w.toList) (hne : trim w ≠ "")
    (ha : AreApart w.toList right) (hl : Laid Spells (n :: ls) right rest) :
    Laid Spells (.literal slot (.ofWords (trim w)) :: n :: ls) (w.toList ++ right) rest := by
  obtain ⟨lead, trail, hsplit, hlead, htrail⟩ := exists_trim w
  have hproper : IsProper (trim w) := ⟨hne, trim_trim w⟩
  have hend := (trim_eq_self_iff.1 hproper.2).2
  rw [hsplit] at hw ha
  refine ⟨lead, (trim w).toList, trail ++ right, by simp [hsplit], hlead, ?_, ?_⟩
  · exact spells_ofWords hproper (hw.inner hlead htrail)
      (ha.endsWord (by simpa using hne) hend htrail)
  · exact hl.congr (skipBlanks_append_of_blanks htrail right).symm

/-- No word touches a sign. -/
theorem endsWord_of_laid {t : Token} {ls : List Lexeme} {cs rest : List Char}
    (hl : Laid Spells (.token t :: ls) cs rest) (ht : ∀ k, t ≠ .keyword k) : EndsWord cs := by
  obtain ⟨blanks, w, after, rfl, hb, hs, -⟩ := hl
  cases blanks with
  | cons b blanks => exact endsWord_cons.2 (isWordChar_of_isBlank (hb b (by simp)))
  | nil =>
    cases hs with
    | keyword _ _ _ => exact absurd rfl (ht _)
    | @sign _ c _ hc => exact endsWord_cons.2 (by simp [isWordChar, isSign, hc])

theorem Slot.EndsAt.ne_keyword {slot : Slot} {t : Token} (h : slot.EndsAt (.token t))
    (ht : t ≠ .keyword .where) (k : Keyword) : t ≠ .keyword k := by
  rintro rfl
  cases slot with
  | listItem => simp [Slot.EndsAt] at h
  | assignment => exact ht (by simpa [Slot.EndsAt] using h)
  | condition => simp [Slot.EndsAt] at h

/-- White space alone is no literal. -/
theorem literal_of_blank {slot : Slot} {t : Token} {ls : List Lexeme} {w right rest : List Char}
    (hw : ∀ c ∈ w, isBlank c = true) (ht : slot.EndsAt (.token t))
    (hl : Laid Spells (.token t :: ls) right rest) :
    literal slot (w ++ right) = .error (.expectedValue t) := by
  obtain ⟨after, hb, -⟩ := Laid.cons_iff.1 hl
  have hi := skipBlanks_skipBlanks right
  have hstops : slot.Stops (endsBlank true ([] ++ [' '])) (skipBlanks right) :=
    stops_of_endsAt (by simp [isBlank]) (endsWord_cons.2 (by decide)) ht hi (hb.congr hi.symm)
  have hnext : next (skipBlanks right) = .ok (t, after) :=
    (next_eq_ok_iff (isFixed_of_begins hb)).2 (hb.congr hi.symm)
  obtain ⟨c, r, hc⟩ : ∃ c r, skipBlanks right = c :: r := by
    obtain ⟨v, hv, hs⟩ := hb
    obtain ⟨c, v', rfl, -⟩ := hs.exists_head
    exact ⟨c, v' ++ after, hv⟩
  have hq : c ≠ '"' := by
    rintro rfl
    have hn := next?_of_begins hb
    unfold next? at hn
    rw [hc] at hn
    obtain ⟨⟨s, r'⟩, -, hn⟩ := bind_eq_ok_iff.1 hn
    cases hn
    exact isFixed_of_begins hb
  have hbare : takeBare slot true (skipBlanks right) = ([], skipBlanks right) :=
    takeBare_of_stops hstops
  rw [hc] at hbare hnext
  unfold literal literal?
  rw [skipBlanks_append_of_blanks hw, hc]
  dsimp only
  rw [if_neg hq, hbare]
  exact bind_eq_error_iff.2 (.inr ⟨_, hnext, rfl⟩)

/-! Errors in a gap -/

section Errors

variable {e : SyntaxError} {cs mid : List Char}

theorem assignment_of_error {column : String}
    (hl : Laid Spells [.name column, .token .equal] cs mid) (he : literal .assignment mid = .error e) :
    assignment cs = .error e := by
  obtain ⟨m, h₁, hl⟩ := hl.exists_name
  obtain ⟨m', h₂, rfl⟩ := hl.exists_expect
  refine bind_eq_error_iff.2 (.inr ⟨_, h₁, ?_⟩)
  refine bind_eq_error_iff.2 (.inr ⟨_, h₂, ?_⟩)
  exact bind_eq_error_iff.2 (.inl he)

theorem condition_of_error {column : String} (hl : Laid Spells (Condition.opening column) cs mid)
    (he : literal .condition mid = .error e) : condition cs = .error e := by
  obtain ⟨m₀, h₀, hl⟩ := hl.exists_accept?
  obtain ⟨m, h₁, hl⟩ := hl.exists_name
  obtain ⟨m', h₂, rfl⟩ := hl.exists_expect
  rw [condition, h₀]
  refine bind_eq_error_iff.2 (.inr ⟨_, h₁, ?_⟩)
  refine bind_eq_error_iff.2 (.inr ⟨_, h₂, ?_⟩)
  exact bind_eq_error_iff.2 (.inl he)

theorem valueList_of_error {before : List Literal}
    (hl : Laid Spells (ended (fun l => [.literal .listItem l]) before) cs mid)
    (he : literal .listItem mid = .error e) : valueList cs = .error e := by
  induction before generalizing cs with
  | nil =>
    obtain rfl : cs = mid := hl
    rw [valueList_eq]
    exact bind_eq_error_iff.2 (.inl he)
  | cons l before ih =>
    rw [ended, List.flatMap_cons, List.append_assoc] at hl
    obtain ⟨m, h₁, hl⟩ := (reads_literal .listItem).complete trivial (.inl rfl) hl
    obtain ⟨m', h₂, hl⟩ := hl.exists_next
    rw [valueList_eq]
    refine bind_eq_error_iff.2 (.inr ⟨_, h₁, ?_⟩)
    refine bind_eq_error_iff.2 (.inr ⟨_, h₂, ?_⟩)
    exact bind_eq_error_iff.2 (.inl (ih hl))

/-- An item that cannot be read ends a list, whatever items there are in front of it. -/
theorem commaList_of_error {item : List Char → Except SyntaxError (α × List Char)}
    {lexemes : α → List Lexeme} {follows : Lexeme → Prop}
    (hr : Reads item (fun _ => True) lexemes follows) (hf : follows (.token .comma))
    {shrinks : ∀ {cs x rest}, item cs = .ok (x, rest) → rest.length ≤ cs.length} {before : List α}
    (hl : Laid Spells (ended lexemes before) cs mid) (he : item mid = .error e) :
    commaList item shrinks cs = .error e := by
  induction before generalizing cs with
  | nil =>
    obtain rfl : cs = mid := hl
    rw [commaList_eq]
    exact bind_eq_error_iff.2 (.inl he)
  | cons x before ih =>
    rw [ended, List.flatMap_cons, List.append_assoc] at hl
    obtain ⟨m, h₁, hl⟩ := hr.complete trivial hf hl
    obtain ⟨m', h₂, hl⟩ := hl.exists_accept?
    rw [commaList_eq]
    refine bind_eq_error_iff.2 (.inr ⟨_, h₁, ?_⟩)
    dsimp only
    rw [h₂]
    exact bind_eq_error_iff.2 (.inl (ih hl))

namespace Statement

theorem insertInto_of_error {table : String} {before after : List Literal}
    (hl : Laid Spells (Gap.value table before after).opening cs mid)
    (he : literal .listItem mid = .error e) : insertInto cs = .error e := by
  obtain ⟨m₁, h₁, hl⟩ := hl.exists_expect
  obtain ⟨m₂, h₂, hl⟩ := hl.exists_name
  obtain ⟨m₃, h₃, hl⟩ := hl.exists_expect
  obtain ⟨m₄, h₄, hl⟩ := hl.exists_expect
  refine bind_eq_error_iff.2 (.inr ⟨_, h₁, ?_⟩)
  refine bind_eq_error_iff.2 (.inr ⟨_, h₂, ?_⟩)
  refine bind_eq_error_iff.2 (.inr ⟨_, h₃, ?_⟩)
  refine bind_eq_error_iff.2 (.inr ⟨_, h₄, ?_⟩)
  exact bind_eq_error_iff.2 (.inl (valueList_of_error hl he))

theorem updateSet_of_assignment_error {table column : String} {before after : List Assignment}
    {w : Option Condition} (hl : Laid Spells (Gap.assigned table before column after w).opening cs mid)
    (he : literal .assignment mid = .error e) : updateSet cs = .error e := by
  rw [Gap.opening, List.append_assoc] at hl
  obtain ⟨m₁, h₁, hl⟩ := hl.exists_name
  obtain ⟨m₂, h₂, hl⟩ := hl.exists_expect
  replace hl : Laid Spells (ended Assignment.lexemes before ++ [.name column, .token .equal]) m₂ mid :=
    hl
  obtain ⟨m₃, hb, hl⟩ := Laid.append_iff.1 hl
  have h₃ : commaList assignment length_assignment_le m₂ = .error e :=
    commaList_of_error reads_assignment (.inl rfl) hb (assignment_of_error hl he)
  refine bind_eq_error_iff.2 (.inr ⟨_, h₁, ?_⟩)
  refine bind_eq_error_iff.2 (.inr ⟨_, h₂, ?_⟩)
  exact bind_eq_error_iff.2 (.inl h₃)

theorem updateSet_of_condition_error {table column : String} {assignments : List Assignment}
    (hi : assignments ≠ []) (hl : Laid Spells (Gap.updated table assignments column).opening cs mid)
    (he : literal .condition mid = .error e) : updateSet cs = .error e := by
  rw [Gap.opening, List.append_assoc] at hl
  obtain ⟨m₁, h₁, hl⟩ := hl.exists_name
  obtain ⟨m₂, h₂, hl⟩ := hl.exists_expect
  obtain ⟨m₃, h₃, hl⟩ := reads_assignments.complete hi (.inl rfl) hl
  refine bind_eq_error_iff.2 (.inr ⟨_, h₁, ?_⟩)
  refine bind_eq_error_iff.2 (.inr ⟨_, h₂, ?_⟩)
  refine bind_eq_error_iff.2 (.inr ⟨_, h₃, ?_⟩)
  exact bind_eq_error_iff.2 (.inl (condition_of_error hl he))

theorem selectFrom_of_error {table column : String} {columns : Option (List String)}
    (hi : columns ≠ some []) (hl : Laid Spells (Gap.selected table columns column).opening cs mid)
    (he : literal .condition mid = .error e) : selectFrom cs = .error e := by
  rw [Gap.opening, List.append_assoc] at hl
  obtain ⟨m₁, h₁, hl⟩ := reads_selection.complete hi rfl hl
  obtain ⟨m₂, h₂, hl⟩ := hl.exists_expect
  obtain ⟨m₃, h₃, hl⟩ := hl.exists_name
  refine bind_eq_error_iff.2 (.inr ⟨_, h₁, ?_⟩)
  refine bind_eq_error_iff.2 (.inr ⟨_, h₂, ?_⟩)
  refine bind_eq_error_iff.2 (.inr ⟨_, h₃, ?_⟩)
  exact bind_eq_error_iff.2 (.inl (condition_of_error hl he))

theorem deleteFrom_of_error {table column : String}
    (hl : Laid Spells (Gap.deleted table column).opening cs mid)
    (he : literal .condition mid = .error e) : deleteFrom cs = .error e := by
  obtain ⟨m₁, h₁, hl⟩ := hl.exists_expect
  obtain ⟨m₂, h₂, hl⟩ := hl.exists_name
  refine bind_eq_error_iff.2 (.inr ⟨_, h₁, ?_⟩)
  refine bind_eq_error_iff.2 (.inr ⟨_, h₂, ?_⟩)
  exact bind_eq_error_iff.2 (.inl (condition_of_error hl he))

end Statement

/-- A literal that cannot be read makes the statement one that cannot be read. -/
theorem Gap.read_of_error {g : Gap} (hi : (g.fill .null).HasItems)
    (hl : Laid Spells g.front cs mid) (he : literal g.slot mid = .error e) :
    Statement.read cs = .error e := by
  obtain ⟨m, hk, hl⟩ := hl.exists_next
  unfold Statement.read
  rw [hk]
  cases g with
  | value table before after => exact Statement.insertInto_of_error hl he
  | assigned table before column after w => exact Statement.updateSet_of_assignment_error hl he
  | selected table columns column =>
    refine Statement.selectFrom_of_error ?_ hl he
    rintro rfl
    exact hi rfl
  | updated table assignments column => exact Statement.updateSet_of_condition_error hi hl he
  | deleted table column => exact Statement.deleteFrom_of_error hl he

end Errors

/-! Statements with literals without quotes -/

theorem Gap.parse_fill {g : Gap} {left w right : String} (hg : g.Surrounds left right) {l : Literal}
    (hl : ∀ rest, Laid Spells g.back right.toList rest →
      Laid Spells (.literal g.slot l :: g.back) (w.toList ++ right.toList) rest) :
    Statement.parse (left ++ w ++ right) = .ok (g.fill l) := by
  obtain ⟨rest, hb, hr⟩ := hg.back
  refine Statement.parse_eq_ok_iff.2 ⟨hasItems_fill hg.items l, rest, ?_, hr⟩
  rw [lexemes_fill, String.toList_append, String.toList_append, List.append_assoc]
  exact Laid.append_iff.2 ⟨_, hg.laid_front _, hl rest hb⟩

/-- What `UPDATE` gives to `b` after `a` and where `d` is `NULL` is left out. -/
def unfinished : Gap := .assigned "t" [⟨"a", .text ","⟩] "b" [] (some ⟨"d", .null⟩)

theorem surrounds_unfinished :
    unfinished.Surrounds "update t SET a = \",\", b=" "Where d =\tnull ;\n" := by
  have hb : ∀ {w : List Char}, w.all isBlank = true → ∀ c ∈ w, isBlank c = true :=
    List.all_eq_true.1
  refine ⟨by simp [unfinished, Gap.fill, Statement.HasItems], ?_, ['\n'], ?_, hb rfl⟩
  · refine ⟨[], "update".toList, _, rfl, hb rfl, .keyword (by decide) (by decide) (by decide), ?_⟩
    refine ⟨[' '], "t".toList, _, rfl, hb rfl, .name (by decide) (by decide), ?_⟩
    refine ⟨[' '], "SET".toList, _, rfl, hb rfl, .keyword (by decide) (by decide) (by decide), ?_⟩
    refine ⟨[' '], "a".toList, _, rfl, hb rfl, .name (by decide) (by decide), ?_⟩
    refine ⟨[' '], ['='], _, rfl, hb rfl, .sign rfl, ?_⟩
    refine ⟨[' '], "\",\"".toList, _, rfl, hb rfl, .quoted (by decide), ?_⟩
    refine ⟨[], [','], _, rfl, hb rfl, .sign rfl, ?_⟩
    refine ⟨[' '], "b".toList, _, rfl, hb rfl, .name (by decide) (by decide), ?_⟩
    exact ⟨[], ['='], _, rfl, hb rfl, .sign rfl, rfl⟩
  · refine ⟨[], "Where".toList, _, rfl, hb rfl, .keyword (by decide) (by decide) (by decide), ?_⟩
    refine ⟨[' '], "d".toList, _, rfl, hb rfl, .name (by decide) (by decide), ?_⟩
    refine ⟨[' '], ['='], _, rfl, hb rfl, .sign rfl, ?_⟩
    refine ⟨['\t'], "null".toList, _, rfl, hb rfl, .null (by decide) (by decide), ?_⟩
    exact ⟨[' '], [';'], _, rfl, hb rfl, .sign rfl, rfl⟩

end TableStore.Sql

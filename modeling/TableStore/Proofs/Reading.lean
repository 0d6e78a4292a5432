import TableStore.Proofs.Scanning

/-!
# Reading

Each reader of the parser takes what is laid out for its result, and nothing else. Both directions
look at the lexeme that comes after, which is never a part of what is read.
-/
namespace TableStore.Sql

variable {α : Type}

/-- A reader gives valid results, each of which is laid out in what the reader took; and it takes
every valid result that is laid out in front of a lexeme that can follow. -/
structure Reads (r : List Char → Except SyntaxError (α × List Char)) (valid : α → Prop)
    (lexemes : α → List Lexeme) (follows : Lexeme → Prop) : Prop where
  sound : ∀ {x cs mid n ls rest}, r cs = .ok (x, mid) → Laid Spells (n :: ls) mid rest →
    valid x ∧ Laid Spells (lexemes x ++ n :: ls) cs rest
  complete : ∀ {x cs n ls rest}, valid x → follows n → Laid Spells (lexemes x ++ n :: ls) cs rest →
    ∃ mid, r cs = .ok (x, mid) ∧ Laid Spells (n :: ls) mid rest

namespace Laid

variable {t : Token} {s : String} {ls : List Lexeme} {cs m rest : List Char}

theorem of_next (h : next cs = .ok (t, m)) (ht : t.IsFixed) (hl : Laid Spells ls m rest) :
    Laid Spells (.token t :: ls) cs rest :=
  .cons ((next_eq_ok_iff ht).1 h) hl

theorem exists_next (hl : Laid Spells (.token t :: ls) cs rest) :
    ∃ m, next cs = .ok (t, m) ∧ Laid Spells ls m rest := by
  obtain ⟨m, hb, hl⟩ := cons_iff.1 hl
  exact ⟨m, (next_eq_ok_iff (isFixed_of_begins hb)).2 hb, hl⟩

theorem of_expect (h : expect t cs = .ok m) (ht : t.IsFixed) (hl : Laid Spells ls m rest) :
    Laid Spells (.token t :: ls) cs rest :=
  of_next (expect_eq_ok h) ht hl

theorem exists_expect (hl : Laid Spells (.token t :: ls) cs rest) :
    ∃ m, expect t cs = .ok m ∧ Laid Spells ls m rest := by
  obtain ⟨m, hb, hl⟩ := cons_iff.1 hl
  exact ⟨m, (expect_eq_ok_iff (isFixed_of_begins hb)).2 hb, hl⟩

theorem of_accept? (h : accept? t cs = some m) (ht : t.IsFixed) (hl : Laid Spells ls m rest) :
    Laid Spells (.token t :: ls) cs rest :=
  .cons ((accept?_eq_some_iff ht).1 h) hl

theorem exists_accept? (hl : Laid Spells (.token t :: ls) cs rest) :
    ∃ m, accept? t cs = some m ∧ Laid Spells ls m rest := by
  obtain ⟨m, hb, hl⟩ := cons_iff.1 hl
  exact ⟨m, (accept?_eq_some_iff (isFixed_of_begins hb)).2 hb, hl⟩

theorem of_name (h : name cs = .ok (s, m)) (hl : Laid Spells ls m rest) :
    Laid Spells (.name s :: ls) cs rest :=
  .cons (name_eq_ok_iff.1 h) hl

theorem exists_name (hl : Laid Spells (.name s :: ls) cs rest) :
    ∃ m, name cs = .ok (s, m) ∧ Laid Spells ls m rest := by
  obtain ⟨m, hb, hl⟩ := cons_iff.1 hl
  exact ⟨m, name_eq_ok_iff.2 hb, hl⟩

end Laid

/-! Parts of statements -/

theorem reads_name : Reads name (fun _ => True) (fun s => [.name s]) fun _ => True where
  sound h hl := ⟨trivial, .of_name h hl⟩
  complete _ _ hl := hl.exists_name

theorem reads_literal (slot : Slot) :
    Reads (literal slot) (fun _ => True) (fun l => [.literal slot l]) slot.EndsAt where
  sound h hl := by
    obtain ⟨after, hb, he⟩ := begins_of_literal h
    exact ⟨trivial, .cons hb (hl.congr he.symm)⟩
  complete _ hn hl := by
    obtain ⟨after, hb, hl⟩ := Laid.cons_iff.1 hl
    obtain ⟨mid, h, he⟩ := literal_of_begins hb hn hl
    exact ⟨mid, h, hl.congr he.symm⟩

theorem reads_columnSpec :
    Reads columnSpec (fun _ => True) ColumnSpec.lexemes fun _ => True where
  sound h hl := by
    obtain ⟨⟨column, m⟩, h₁, h⟩ := bind_eq_ok_iff.1 h
    obtain ⟨⟨word, m'⟩, h₂, h⟩ := bind_eq_ok_iff.1 h
    dsimp only at h
    split at h
    · rename_i t ht
      cases h
      have hb := begins_type_iff.2 ⟨word, name_eq_ok_iff.1 h₂, ht⟩
      exact ⟨trivial, .of_name h₁ (.cons hb hl)⟩
    · cases h
  complete _ _ hl := by
    obtain ⟨m, h₁, hl⟩ := hl.exists_name
    obtain ⟨m', h₂, hl⟩ := Laid.cons_iff.1 hl
    obtain ⟨word, hw, ht⟩ := begins_type_iff.1 h₂
    refine ⟨m', bind_eq_ok_iff.2 ⟨_, h₁, ?_⟩, hl⟩
    refine bind_eq_ok_iff.2 ⟨_, name_eq_ok_iff.2 hw, ?_⟩
    dsimp only
    rw [ht]
    rfl

theorem reads_assignment :
    Reads assignment (fun _ => True) Assignment.lexemes (Slot.EndsAt .assignment) where
  sound h hl := by
    obtain ⟨⟨column, m⟩, h₁, h⟩ := bind_eq_ok_iff.1 h
    obtain ⟨m', h₂, h⟩ := bind_eq_ok_iff.1 h
    obtain ⟨⟨l, m''⟩, h₃, h⟩ := bind_eq_ok_iff.1 h
    cases h
    obtain ⟨-, hl⟩ := (reads_literal .assignment).sound h₃ hl
    exact ⟨trivial, .of_name h₁ (.of_expect h₂ trivial hl)⟩
  complete _ hn hl := by
    obtain ⟨m, h₁, hl⟩ := hl.exists_name
    obtain ⟨m', h₂, hl⟩ := hl.exists_expect
    obtain ⟨mid, h₃, hl⟩ := (reads_literal .assignment).complete trivial hn hl
    refine ⟨mid, bind_eq_ok_iff.2 ⟨_, h₁, ?_⟩, hl⟩
    refine bind_eq_ok_iff.2 ⟨_, h₂, ?_⟩
    exact bind_eq_ok_iff.2 ⟨_, h₃, rfl⟩

theorem accept?_of_laid {n : Lexeme} {ls : List Lexeme} {cs rest : List Char} {t got : Token}
    (hl : Laid Spells (n :: ls) cs rest) (hn : n = .token got) (hne : got ≠ t) :
    accept? t cs = none := by
  subst hn
  obtain ⟨after, hb, -⟩ := Laid.cons_iff.1 hl
  exact accept?_of_next? (next?_of_begins hb) hne

theorem reads_condition :
    Reads condition (fun _ => True) Condition.lexemes (· = .token .semicolon) where
  sound h hl := by
    unfold condition at h
    split at h
    · cases h
      exact ⟨trivial, hl⟩
    · rename_i m₀ h₀
      obtain ⟨⟨column, m⟩, h₁, h⟩ := bind_eq_ok_iff.1 h
      obtain ⟨m', h₂, h⟩ := bind_eq_ok_iff.1 h
      obtain ⟨⟨l, m''⟩, h₃, h⟩ := bind_eq_ok_iff.1 h
      cases h
      obtain ⟨-, hl⟩ := (reads_literal .condition).sound h₃ hl
      exact ⟨trivial, .of_accept? h₀ trivial (.of_name h₁ (.of_expect h₂ trivial hl))⟩
  complete {x cs n ls rest} _ hn hl := by
    cases x with
    | none =>
      refine ⟨cs, ?_, hl⟩
      rw [condition, accept?_of_laid hl hn (by simp)]
    | some w =>
      obtain ⟨m₀, h₀, hl⟩ := hl.exists_accept?
      obtain ⟨m, h₁, hl⟩ := hl.exists_name
      obtain ⟨m', h₂, hl⟩ := hl.exists_expect
      obtain ⟨mid, h₃, hl⟩ := (reads_literal .condition).complete trivial hn hl
      refine ⟨mid, ?_, hl⟩
      rw [condition, h₀]
      refine bind_eq_ok_iff.2 ⟨_, h₁, ?_⟩
      refine bind_eq_ok_iff.2 ⟨_, h₂, ?_⟩
      exact bind_eq_ok_iff.2 ⟨_, h₃, rfl⟩

/-! Lists -/

theorem separated_singleton (lexemes : α → List Lexeme) (x : α) :
    separated lexemes [x] = lexemes x :=
  List.intercalate_singleton

theorem separated_cons (lexemes : α → List Lexeme) (x : α) {xs : List α} (h : xs ≠ []) :
    separated lexemes (x :: xs) = lexemes x ++ .token .comma :: separated lexemes xs := by
  obtain ⟨y, ys, rfl⟩ := List.exists_cons_of_ne_nil h
  rw [separated, List.map_cons, List.map_cons, List.intercalate_cons_cons, List.append_assoc]
  rfl

section CommaList

variable {item : List Char → Except SyntaxError (α × List Char)}
  {shrinks : ∀ {cs x rest}, item cs = .ok (x, rest) → rest.length ≤ cs.length}

theorem commaList_eq (cs : List Char) : commaList item shrinks cs = (do
    let (x, m) ← item cs
    match accept? .comma m with
    | none => return ([x], m)
    | some m' =>
      let (xs, rest) ← commaList item shrinks m'
      return (x :: xs, rest)) := by
  rw [commaList]
  split
  · rename_i e he
    rw [he]
    rfl
  · rename_i x m hx
    split
    · rename_i ha
      rw [hx, ok_bind]
      dsimp only
      rw [ha]
      rfl
    · rename_i m' ha
      dsimp only
      rw [hx, ok_bind]
      dsimp only
      rw [ha]
      dsimp only
      cases commaList item shrinks m' <;> rfl

theorem commaList_eq_ok_iff {cs mid : List Char} {xs : List α} :
    commaList item shrinks cs = .ok (xs, mid) ↔ ∃ x m, item cs = .ok (x, m) ∧
      (accept? .comma m = none ∧ xs = [x] ∧ mid = m ∨
        ∃ m' xs', accept? .comma m = some m' ∧ commaList item shrinks m' = .ok (xs', mid) ∧
          xs = x :: xs') := by
  rw [commaList_eq, bind_eq_ok_iff]
  constructor
  · rintro ⟨⟨x, m⟩, hx, h⟩
    dsimp only at h
    split at h
    · rename_i ha
      cases h
      exact ⟨x, _, hx, .inl ⟨ha, rfl, rfl⟩⟩
    · rename_i m' ha
      obtain ⟨⟨xs', rest⟩, hxs, h⟩ := bind_eq_ok_iff.1 h
      cases h
      exact ⟨x, m, hx, .inr ⟨m', xs', ha, hxs, rfl⟩⟩
  · rintro ⟨x, m, hx, ⟨ha, rfl, rfl⟩ | ⟨m', xs', ha, hxs, rfl⟩⟩
    · refine ⟨_, hx, ?_⟩
      dsimp only
      rw [ha]
      rfl
    · refine ⟨_, hx, ?_⟩
      dsimp only
      rw [ha]
      exact bind_eq_ok_iff.2 ⟨_, hxs, rfl⟩

theorem commaList_ne_nil {cs mid : List Char} {xs : List α}
    (h : commaList item shrinks cs = .ok (xs, mid)) : xs ≠ [] := by
  obtain ⟨x, m, -, ⟨-, rfl, -⟩ | ⟨_, _, -, -, rfl⟩⟩ := commaList_eq_ok_iff.1 h
  · simp
  · simp

end CommaList

/-- Lists are read when their items are, up to a token that is no comma. -/
theorem Reads.commaList {item : List Char → Except SyntaxError (α × List Char)}
    {lexemes : α → List Lexeme} {follows : Lexeme → Prop}
    (h : Reads item (fun _ => True) lexemes fun n => n = .token .comma ∨ follows n)
    (hf : ∀ n, follows n → ∃ t, n = .token t ∧ t ≠ .comma)
    (shrinks : ∀ {cs x rest}, item cs = .ok (x, rest) → rest.length ≤ cs.length) :
    Reads (commaList item shrinks) (· ≠ []) (separated lexemes) follows where
  sound {xs cs mid n ls rest} hr hl := by
    refine ⟨commaList_ne_nil hr, ?_⟩
    induction xs generalizing cs with
    | nil => exact absurd rfl (commaList_ne_nil hr)
    | cons x xs ih =>
      obtain ⟨x', m, hx, ⟨-, he, rfl⟩ | ⟨m', xs', ha, hxs, he⟩⟩ := commaList_eq_ok_iff.1 hr
      · cases he
        rw [separated_singleton]
        exact (h.sound hx hl).2
      · cases he
        rw [separated_cons lexemes x (commaList_ne_nil hxs), List.append_assoc, List.cons_append]
        exact (h.sound hx (.of_accept? ha trivial (ih hxs))).2
  -- the last item stands in front of what comes after the list, every other one of a comma
  complete {xs cs n ls rest} hne hn hl := by
    induction xs generalizing cs with
    | nil => exact absurd rfl hne
    | cons x xs ih =>
      by_cases hxs : xs = []
      · subst hxs
        rw [separated_singleton] at hl
        obtain ⟨mid, hx, hl⟩ := h.complete trivial (.inr hn) hl
        obtain ⟨t, ht, htc⟩ := hf n hn
        exact ⟨mid, commaList_eq_ok_iff.2 ⟨x, mid, hx, .inl ⟨accept?_of_laid hl ht htc, rfl, rfl⟩⟩,
          hl⟩
      · rw [separated_cons lexemes x hxs, List.append_assoc, List.cons_append] at hl
        obtain ⟨m, hx, hl⟩ := h.complete trivial (.inl rfl) hl
        obtain ⟨m', ha, hl⟩ := hl.exists_accept?
        obtain ⟨mid, hr, hl⟩ := ih hxs hl
        exact ⟨mid, commaList_eq_ok_iff.2 ⟨x, m, hx, .inr ⟨m', xs, ha, hr, rfl⟩⟩, hl⟩

theorem valueList_eq (cs : List Char) : valueList cs = (do
    let (l, m) ← literal .listItem cs
    let (got, m') ← next m
    match got with
    | .closeParen => return ([l], m')
    | .comma =>
      let (ls, rest) ← valueList m'
      return (l :: ls, rest)
    | got => throw (.unexpected got)) := by
  rw [valueList]
  split
  · rename_i e he
    rw [he]
    rfl
  · rename_i l m hl
    split
    · rename_i e he
      rw [hl, ok_bind]
      dsimp only
      rw [he]
      rfl
    · rename_i m' hn
      rw [hl, ok_bind]
      dsimp only
      rw [hn]
      rfl
    · rename_i m' hn
      dsimp only
      rw [hl, ok_bind]
      dsimp only
      rw [hn, ok_bind]
      dsimp only
      cases valueList m' <;> rfl
    · rename_i got m' hc hk hn
      rw [hl, ok_bind]
      dsimp only
      rw [hn, ok_bind]
      cases got with
      | closeParen => exact absurd rfl hc
      | comma => exact absurd rfl hk
      | _ => rfl

theorem valueList_eq_ok_iff {cs mid : List Char} {ls : List Literal} :
    valueList cs = .ok (ls, mid) ↔ ∃ l m, literal .listItem cs = .ok (l, m) ∧
      (next m = .ok (.closeParen, mid) ∧ ls = [l] ∨
        ∃ m' ls', next m = .ok (.comma, m') ∧ valueList m' = .ok (ls', mid) ∧ ls = l :: ls') := by
  rw [valueList_eq, bind_eq_ok_iff]
  constructor
  · rintro ⟨⟨l, m⟩, hl, h⟩
    obtain ⟨⟨got, m'⟩, hn, h⟩ := bind_eq_ok_iff.1 h
    dsimp only at h
    split at h
    · cases h
      exact ⟨l, m, hl, .inl ⟨hn, rfl⟩⟩
    · obtain ⟨⟨ls', rest⟩, hls, h⟩ := bind_eq_ok_iff.1 h
      cases h
      exact ⟨l, m, hl, .inr ⟨m', ls', hn, hls, rfl⟩⟩
    · cases h
  · rintro ⟨l, m, hl, ⟨hn, rfl⟩ | ⟨m', ls', hn, hls, rfl⟩⟩
    · exact ⟨_, hl, bind_eq_ok_iff.2 ⟨_, hn, rfl⟩⟩
    · refine ⟨_, hl, bind_eq_ok_iff.2 ⟨_, hn, ?_⟩⟩
      exact bind_eq_ok_iff.2 ⟨_, hls, rfl⟩

theorem valueLexemes_singleton (l : Literal) :
    valueLexemes [l] = [.literal .listItem l, .token .closeParen] := by
  rw [valueLexemes, separated_singleton]
  rfl

theorem valueLexemes_cons (l : Literal) {ls : List Literal} (h : ls ≠ []) :
    valueLexemes (l :: ls) = .literal .listItem l :: .token .comma :: valueLexemes ls := by
  rw [valueLexemes, separated_cons _ l h, List.append_assoc]
  rfl

theorem reads_valueList : Reads valueList (· ≠ []) valueLexemes fun _ => True where
  sound {xs cs mid n ls rest} hr hl := by
    induction xs generalizing cs with
    | nil =>
      obtain ⟨l, m, -, ⟨-, h⟩ | ⟨_, _, -, -, h⟩⟩ := valueList_eq_ok_iff.1 hr
      · cases h
      · cases h
    | cons x xs ih =>
      refine ⟨by simp, ?_⟩
      obtain ⟨l, m, hx, ⟨hn, he⟩ | ⟨m', xs', hn, hxs, he⟩⟩ := valueList_eq_ok_iff.1 hr
      · cases he
        rw [valueLexemes_singleton]
        exact ((reads_literal .listItem).sound hx (.of_next hn trivial hl)).2
      · cases he
        obtain ⟨hne, hxs⟩ := ih hxs
        rw [valueLexemes_cons x hne]
        have hl := Laid.of_next hn trivial hxs
        exact ((reads_literal .listItem).sound hx hl).2
  complete {xs cs n ls rest} hne hn hl := by
    induction xs generalizing cs with
    | nil => exact absurd rfl hne
    | cons x xs ih =>
      by_cases hxs : xs = []
      · subst hxs
        rw [valueLexemes_singleton] at hl
        obtain ⟨m, hx, hl⟩ := (reads_literal .listItem).complete trivial (.inr rfl) hl
        obtain ⟨mid, hn, hl⟩ := hl.exists_next
        exact ⟨mid, valueList_eq_ok_iff.2 ⟨x, m, hx, .inl ⟨hn, rfl⟩⟩, hl⟩
      · rw [valueLexemes_cons x hxs] at hl
        obtain ⟨m, hx, hl⟩ := (reads_literal .listItem).complete trivial (.inl rfl) hl
        obtain ⟨m', hn, hl⟩ := hl.exists_next
        obtain ⟨mid, hr, hl⟩ := ih hxs hl
        exact ⟨mid, valueList_eq_ok_iff.2 ⟨x, m, hx, .inr ⟨m', xs, hn, hr, rfl⟩⟩, hl⟩

theorem Token.ofWord_ne_asterisk (s : String) : Token.ofWord s ≠ .asterisk := by
  unfold Token.ofWord
  split <;> simp

/-- No name is taken for a star. -/
theorem accept?_asterisk_of_name {names : List String} {l : Lexeme} {ls : List Lexeme}
    {cs rest : List Char} (hne : names ≠ [])
    (hl : Laid Spells (separated (fun s => [.name s]) names ++ l :: ls) cs rest) :
    accept? .asterisk cs = none := by
  obtain ⟨s, names, rfl⟩ := List.exists_cons_of_ne_nil hne
  obtain ⟨after, hb⟩ : ∃ after, Begins (.name s) cs after := by
    by_cases hn : names = []
    · rw [hn, separated_singleton] at hl
      obtain ⟨after, hb, -⟩ := Laid.cons_iff.1 hl
      exact ⟨after, hb⟩
    · rw [separated_cons _ s hn] at hl
      obtain ⟨after, hb, -⟩ := Laid.cons_iff.1 hl
      exact ⟨after, hb⟩
  exact accept?_of_next? (next?_of_name hb) (Token.ofWord_ne_asterisk s)

theorem reads_names : Reads (commaList name length_name_le) (· ≠ [])
    (separated fun s => [.name s]) (· = .token (.keyword .from)) := by
  refine Reads.commaList ⟨reads_name.sound, fun _ _ => reads_name.complete trivial trivial⟩ ?_ _
  rintro _ rfl
  exact ⟨_, rfl, by simp⟩

theorem reads_selection : Reads Statement.selection (· ≠ some []) selectionLexemes
    (· = .token (.keyword .from)) where
  sound h hl := by
    unfold Statement.selection at h
    split at h
    · rename_i m ha
      cases h
      exact ⟨by simp, .of_accept? ha trivial hl⟩
    · obtain ⟨⟨names, m⟩, hr, h⟩ := bind_eq_ok_iff.1 h
      cases h
      obtain ⟨hne, hl⟩ := reads_names.sound hr hl
      exact ⟨by simpa using hne, hl⟩
  complete {x cs n ls rest} hne hn hl := by
    cases x with
    | none =>
      obtain ⟨mid, ha, hl⟩ := hl.exists_accept?
      refine ⟨mid, ?_, hl⟩
      rw [Statement.selection, ha]
    | some names =>
      have hne : names ≠ [] := by simpa using hne
      obtain ⟨mid, hr, hl'⟩ := reads_names.complete hne hn hl
      refine ⟨mid, ?_, hl'⟩
      rw [Statement.selection, accept?_asterisk_of_name hne hl]
      exact bind_eq_ok_iff.2 ⟨_, hr, rfl⟩

/-! Statements -/

namespace Statement

theorem reads_columnSpecs : Reads (commaList columnSpec length_columnSpec_le) (· ≠ [])
    (separated ColumnSpec.lexemes) (· = .token .closeParen) := by
  refine Reads.commaList
    ⟨reads_columnSpec.sound, fun _ _ => reads_columnSpec.complete trivial trivial⟩ ?_ _
  rintro _ rfl
  exact ⟨_, rfl, by simp⟩

theorem reads_create : Reads create (fun s => s.command = .create ∧ s.HasItems) body
    (· = .token .semicolon) where
  sound h hl := by
    obtain ⟨⟨object, m⟩, h₁, h⟩ := bind_eq_ok_iff.1 h
    dsimp only at h
    split at h
    · obtain ⟨⟨s, m'⟩, h₂, h⟩ := bind_eq_ok_iff.1 h
      cases h
      exact ⟨⟨rfl, trivial⟩, .of_next h₁ trivial (.of_name h₂ hl)⟩
    · obtain ⟨⟨s, m₂⟩, h₂, h⟩ := bind_eq_ok_iff.1 h
      obtain ⟨m₃, h₃, h⟩ := bind_eq_ok_iff.1 h
      obtain ⟨⟨columns, m₄⟩, h₄, h⟩ := bind_eq_ok_iff.1 h
      obtain ⟨m₅, h₅, h⟩ := bind_eq_ok_iff.1 h
      cases h
      obtain ⟨hne, hl⟩ := reads_columnSpecs.sound h₄ (.of_expect h₅ trivial hl)
      refine ⟨⟨rfl, hne⟩, ?_⟩
      rw [body, List.append_assoc, List.append_assoc]
      exact .of_next h₁ trivial (.of_name h₂ (.of_expect h₃ trivial hl))
    · cases h
  complete {s cs n ls rest} hs hn hl := by
    obtain ⟨hc, hi⟩ := hs
    cases s with
    | createDatabase s =>
      obtain ⟨m₁, h₁, hl⟩ := hl.exists_next
      obtain ⟨m₂, h₂, hl⟩ := hl.exists_name
      refine ⟨m₂, bind_eq_ok_iff.2 ⟨_, h₁, ?_⟩, hl⟩
      exact bind_eq_ok_iff.2 ⟨_, h₂, rfl⟩
    | createTable s columns =>
      rw [body, List.append_assoc, List.append_assoc] at hl
      obtain ⟨m₁, h₁, hl⟩ := hl.exists_next
      obtain ⟨m₂, h₂, hl⟩ := hl.exists_name
      obtain ⟨m₃, h₃, hl⟩ := hl.exists_expect
      obtain ⟨m₄, h₄, hl⟩ := reads_columnSpecs.complete hi rfl hl
      obtain ⟨m₅, h₅, hl⟩ := hl.exists_expect
      refine ⟨m₅, bind_eq_ok_iff.2 ⟨_, h₁, ?_⟩, hl⟩
      refine bind_eq_ok_iff.2 ⟨_, h₂, ?_⟩
      refine bind_eq_ok_iff.2 ⟨_, h₃, ?_⟩
      refine bind_eq_ok_iff.2 ⟨_, h₄, ?_⟩
      exact bind_eq_ok_iff.2 ⟨_, h₅, rfl⟩
    | _ => cases hc

theorem reads_drop : Reads drop (fun s => s.command = .drop ∧ s.HasItems) body
    (· = .token .semicolon) where
  sound h hl := by
    obtain ⟨⟨object, m⟩, h₁, h⟩ := bind_eq_ok_iff.1 h
    dsimp only at h
    split at h
    · obtain ⟨⟨s, m'⟩, h₂, h⟩ := bind_eq_ok_iff.1 h
      cases h
      exact ⟨⟨rfl, trivial⟩, .of_next h₁ trivial (.of_name h₂ hl)⟩
    · obtain ⟨⟨s, m'⟩, h₂, h⟩ := bind_eq_ok_iff.1 h
      cases h
      exact ⟨⟨rfl, trivial⟩, .of_next h₁ trivial (.of_name h₂ hl)⟩
    · cases h
  complete {s cs n ls rest} hs hn hl := by
    obtain ⟨hc, -⟩ := hs
    cases s with
    | dropDatabase s =>
      obtain ⟨m₁, h₁, hl⟩ := hl.exists_next
      obtain ⟨m₂, h₂, hl⟩ := hl.exists_name
      refine ⟨m₂, bind_eq_ok_iff.2 ⟨_, h₁, ?_⟩, hl⟩
      exact bind_eq_ok_iff.2 ⟨_, h₂, rfl⟩
    | dropTable s =>
      obtain ⟨m₁, h₁, hl⟩ := hl.exists_next
      obtain ⟨m₂, h₂, hl⟩ := hl.exists_name
      refine ⟨m₂, bind_eq_ok_iff.2 ⟨_, h₁, ?_⟩, hl⟩
      exact bind_eq_ok_iff.2 ⟨_, h₂, rfl⟩
    | _ => cases hc

theorem reads_useName : Reads useName (fun s => s.command = .use ∧ s.HasItems) body
    (· = .token .semicolon) where
  sound h hl := by
    obtain ⟨⟨s, m⟩, h₁, h⟩ := bind_eq_ok_iff.1 h
    cases h
    exact ⟨⟨rfl, trivial⟩, .of_name h₁ hl⟩
  complete {s cs n ls rest} hs hn hl := by
    obtain ⟨hc, -⟩ := hs
    cases s with
    | useDatabase s =>
      obtain ⟨m, h₁, hl⟩ := hl.exists_name
      exact ⟨m, bind_eq_ok_iff.2 ⟨_, h₁, rfl⟩, hl⟩
    | _ => cases hc

theorem reads_showObjects : Reads showObjects (fun s => s.command = .show ∧ s.HasItems) body
    (· = .token .semicolon) where
  sound h hl := by
    obtain ⟨⟨object, m⟩, h₁, h⟩ := bind_eq_ok_iff.1 h
    dsimp only at h
    split at h
    · cases h
      exact ⟨⟨rfl, trivial⟩, .of_next h₁ trivial hl⟩
    · cases h
      exact ⟨⟨rfl, trivial⟩, .of_next h₁ trivial hl⟩
    · cases h
  complete {s cs n ls rest} hs hn hl := by
    obtain ⟨hc, -⟩ := hs
    cases s with
    | showDatabases =>
      obtain ⟨m, h₁, hl⟩ := hl.exists_next
      exact ⟨m, bind_eq_ok_iff.2 ⟨_, h₁, rfl⟩, hl⟩
    | showTables =>
      obtain ⟨m, h₁, hl⟩ := hl.exists_next
      exact ⟨m, bind_eq_ok_iff.2 ⟨_, h₁, rfl⟩, hl⟩
    | _ => cases hc

theorem reads_insertInto : Reads insertInto (fun s => s.command = .insert ∧ s.HasItems) body
    (· = .token .semicolon) where
  sound h hl := by
    obtain ⟨m₁, h₁, h⟩ := bind_eq_ok_iff.1 h
    obtain ⟨⟨table, m₂⟩, h₂, h⟩ := bind_eq_ok_iff.1 h
    obtain ⟨m₃, h₃, h⟩ := bind_eq_ok_iff.1 h
    obtain ⟨m₄, h₄, h⟩ := bind_eq_ok_iff.1 h
    obtain ⟨⟨values, m₅⟩, h₅, h⟩ := bind_eq_ok_iff.1 h
    cases h
    obtain ⟨hne, hl⟩ := reads_valueList.sound h₅ hl
    refine ⟨⟨rfl, hne⟩, ?_⟩
    rw [body, List.append_assoc]
    refine .of_expect h₁ trivial (.of_name h₂ ?_)
    exact .of_expect h₃ trivial (.of_expect h₄ trivial hl)
  complete {s cs n ls rest} hs hn hl := by
    obtain ⟨hc, hi⟩ := hs
    cases s with
    | insert table values =>
      rw [body, List.append_assoc] at hl
      obtain ⟨m₁, h₁, hl⟩ := hl.exists_expect
      obtain ⟨m₂, h₂, hl⟩ := hl.exists_name
      obtain ⟨m₃, h₃, hl⟩ := hl.exists_expect
      obtain ⟨m₄, h₄, hl⟩ := hl.exists_expect
      obtain ⟨m₅, h₅, hl⟩ := reads_valueList.complete hi trivial hl
      refine ⟨m₅, bind_eq_ok_iff.2 ⟨_, h₁, ?_⟩, hl⟩
      refine bind_eq_ok_iff.2 ⟨_, h₂, ?_⟩
      refine bind_eq_ok_iff.2 ⟨_, h₃, ?_⟩
      refine bind_eq_ok_iff.2 ⟨_, h₄, ?_⟩
      exact bind_eq_ok_iff.2 ⟨_, h₅, rfl⟩
    | _ => cases hc

theorem reads_selectFrom : Reads selectFrom (fun s => s.command = .select ∧ s.HasItems) body
    (· = .token .semicolon) where
  sound h hl := by
    obtain ⟨⟨columns, m₁⟩, h₁, h⟩ := bind_eq_ok_iff.1 h
    obtain ⟨m₂, h₂, h⟩ := bind_eq_ok_iff.1 h
    obtain ⟨⟨table, m₃⟩, h₃, h⟩ := bind_eq_ok_iff.1 h
    obtain ⟨⟨w, m₄⟩, h₄, h⟩ := bind_eq_ok_iff.1 h
    cases h
    obtain ⟨-, hl⟩ := reads_condition.sound h₄ hl
    obtain ⟨hne, hl⟩ := reads_selection.sound h₁ (.of_expect h₂ trivial (.of_name h₃ hl))
    refine ⟨⟨rfl, ?_⟩, ?_⟩
    · cases columns with
      | none => trivial
      | some names => exact fun h => hne (congrArg some h)
    · rw [body, List.append_assoc, List.append_assoc]
      exact hl
  complete {s cs n ls rest} hs hn hl := by
    obtain ⟨hc, hi⟩ := hs
    cases s with
    | select table columns w =>
      have hne : columns ≠ some [] := by
        rintro rfl
        exact hi rfl
      rw [body, List.append_assoc, List.append_assoc] at hl
      obtain ⟨m₁, h₁, hl⟩ := reads_selection.complete hne rfl hl
      obtain ⟨m₂, h₂, hl⟩ := hl.exists_expect
      obtain ⟨m₃, h₃, hl⟩ := hl.exists_name
      obtain ⟨m₄, h₄, hl⟩ := reads_condition.complete trivial hn hl
      refine ⟨m₄, bind_eq_ok_iff.2 ⟨_, h₁, ?_⟩, hl⟩
      refine bind_eq_ok_iff.2 ⟨_, h₂, ?_⟩
      refine bind_eq_ok_iff.2 ⟨_, h₃, ?_⟩
      exact bind_eq_ok_iff.2 ⟨_, h₄, rfl⟩
    | _ => cases hc

theorem reads_assignments : Reads (commaList assignment length_assignment_le) (· ≠ [])
    (separated Assignment.lexemes)
    fun n => n = .token (.keyword .where) ∨ n = .token .semicolon := by
  refine Reads.commaList reads_assignment ?_ _
  rintro _ (rfl | rfl)
  · exact ⟨_, rfl, by simp⟩
  · exact ⟨_, rfl, by simp⟩

theorem reads_updateSet : Reads updateSet (fun s => s.command = .update ∧ s.HasItems) body
    (· = .token .semicolon) where
  sound h hl := by
    obtain ⟨⟨table, m₁⟩, h₁, h⟩ := bind_eq_ok_iff.1 h
    obtain ⟨m₂, h₂, h⟩ := bind_eq_ok_iff.1 h
    obtain ⟨⟨assignments, m₃⟩, h₃, h⟩ := bind_eq_ok_iff.1 h
    obtain ⟨⟨w, m₄⟩, h₄, h⟩ := bind_eq_ok_iff.1 h
    cases h
    obtain ⟨-, hl⟩ := reads_condition.sound h₄ hl
    rw [body, List.append_assoc, List.append_assoc]
    cases w with
    | none =>
      obtain ⟨hne, hl⟩ := reads_assignments.sound h₃ hl
      exact ⟨⟨rfl, hne⟩, .of_name h₁ (.of_expect h₂ trivial hl)⟩
    | some w =>
      obtain ⟨hne, hl⟩ := reads_assignments.sound h₃ hl
      exact ⟨⟨rfl, hne⟩, .of_name h₁ (.of_expect h₂ trivial hl)⟩
  complete {s cs n ls rest} hs hn hl := by
    obtain ⟨hc, hi⟩ := hs
    cases s with
    | update table assignments w =>
      rw [body, List.append_assoc, List.append_assoc] at hl
      obtain ⟨m₁, h₁, hl⟩ := hl.exists_name
      obtain ⟨m₂, h₂, hl⟩ := hl.exists_expect
      -- a condition or the end of the statement comes after the assignments
      obtain ⟨m₃, h₃, hl⟩ : ∃ m₃, commaList assignment length_assignment_le m₂ =
          .ok (assignments, m₃) ∧ Laid Spells (Condition.lexemes w ++ n :: ls) m₃ rest := by
        cases w with
        | none => exact reads_assignments.complete hi (.inr hn) hl
        | some w => exact reads_assignments.complete hi (.inl rfl) hl
      obtain ⟨m₄, h₄, hl⟩ := reads_condition.complete trivial hn hl
      refine ⟨m₄, bind_eq_ok_iff.2 ⟨_, h₁, ?_⟩, hl⟩
      refine bind_eq_ok_iff.2 ⟨_, h₂, ?_⟩
      refine bind_eq_ok_iff.2 ⟨_, h₃, ?_⟩
      exact bind_eq_ok_iff.2 ⟨_, h₄, rfl⟩
    | _ => cases hc

theorem reads_deleteFrom : Reads deleteFrom (fun s => s.command = .delete ∧ s.HasItems) body
    (· = .token .semicolon) where
  sound h hl := by
    obtain ⟨m₁, h₁, h⟩ := bind_eq_ok_iff.1 h
    obtain ⟨⟨table, m₂⟩, h₂, h⟩ := bind_eq_ok_iff.1 h
    obtain ⟨⟨w, m₃⟩, h₃, h⟩ := bind_eq_ok_iff.1 h
    cases h
    obtain ⟨-, hl⟩ := reads_condition.sound h₃ hl
    exact ⟨⟨rfl, trivial⟩, .of_expect h₁ trivial (.of_name h₂ hl)⟩
  complete {s cs n ls rest} hs hn hl := by
    obtain ⟨hc, -⟩ := hs
    cases s with
    | delete table w =>
      obtain ⟨m₁, h₁, hl⟩ := hl.exists_expect
      obtain ⟨m₂, h₂, hl⟩ := hl.exists_name
      obtain ⟨m₃, h₃, hl⟩ := reads_condition.complete trivial hn hl
      refine ⟨m₃, bind_eq_ok_iff.2 ⟨_, h₁, ?_⟩, hl⟩
      refine bind_eq_ok_iff.2 ⟨_, h₂, ?_⟩
      exact bind_eq_ok_iff.2 ⟨_, h₃, rfl⟩
    | _ => cases hc

theorem reads_help : Reads (fun cs => .ok (help, cs)) (fun s => s.command = .help ∧ s.HasItems) body
    (· = .token .semicolon) where
  sound h hl := by
    cases h
    exact ⟨⟨rfl, trivial⟩, hl⟩
  complete {s cs n ls rest} hs hn hl := by
    obtain ⟨hc, -⟩ := hs
    cases s with
    | help => exact ⟨cs, rfl, hl⟩
    | _ => cases hc

/-- What is read after a command makes up a statement with it. -/
theorem sound_of_command {k : Keyword} {r : List Char → Except SyntaxError (Statement × List Char)}
    (hr : Reads r (fun s => s.command = k ∧ s.HasItems) body (· = .token .semicolon))
    {s : Statement} {n : Lexeme} {ls : List Lexeme} {cs m mid rest : List Char}
    (hk : next cs = .ok (.keyword k, m)) (h : r m = .ok (s, mid))
    (hl : Laid Spells (n :: ls) mid rest) :
    s.HasItems ∧ Laid Spells (.token (.keyword s.command) :: s.body ++ n :: ls) cs rest := by
  obtain ⟨⟨rfl, hi⟩, hl⟩ := hr.sound h hl
  exact ⟨hi, .of_next hk trivial hl⟩

theorem reads_read : Reads read HasItems (fun s => .token (.keyword s.command) :: s.body)
    (· = .token .semicolon) where
  sound h hl := by
    obtain ⟨⟨command, m⟩, hk, h⟩ := bind_eq_ok_iff.1 h
    dsimp only at h
    split at h
    case h_1 => exact sound_of_command reads_create hk h hl
    case h_2 => exact sound_of_command reads_drop hk h hl
    case h_3 => exact sound_of_command reads_useName hk h hl
    case h_4 => exact sound_of_command reads_showObjects hk h hl
    case h_5 => exact sound_of_command reads_insertInto hk h hl
    case h_6 => exact sound_of_command reads_selectFrom hk h hl
    case h_7 => exact sound_of_command reads_updateSet hk h hl
    case h_8 => exact sound_of_command reads_deleteFrom hk h hl
    case h_9 => exact sound_of_command reads_help hk h hl
    case h_10 => cases h
  complete {s cs n ls rest} hi hn hl := by
    obtain ⟨m, hk, hl⟩ := hl.exists_next
    have hread : ∀ {r : List Char → Except SyntaxError (Statement × List Char)},
        Reads r (fun t => t.command = s.command ∧ t.HasItems) body (· = .token .semicolon) →
        read cs = r m → ∃ mid, read cs = .ok (s, mid) ∧ Laid Spells (n :: ls) mid rest := by
      intro r hr he
      rw [he]
      exact hr.complete ⟨rfl, hi⟩ hn hl
    unfold read at hread ⊢
    rw [hk] at hread ⊢
    cases s with
    | createDatabase _ | createTable _ _ => exact hread reads_create rfl
    | dropDatabase _ | dropTable _ => exact hread reads_drop rfl
    | useDatabase _ => exact hread reads_useName rfl
    | showDatabases | showTables => exact hread reads_showObjects rfl
    | insert _ _ => exact hread reads_insertInto rfl
    | select _ _ _ => exact hread reads_selectFrom rfl
    | update _ _ _ => exact hread reads_updateSet rfl
    | delete _ _ => exact hread reads_deleteFrom rfl
    | help => exact hread reads_help rfl

end Statement

end TableStore.Sql

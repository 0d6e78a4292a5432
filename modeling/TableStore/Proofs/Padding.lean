import TableStore.Proofs.Reading

/-!
# White space around a text

White space at the two ends of a text makes no difference to the parser, neither to the statement
nor to the error. Every reader gives the same result for a text with white space after it, and
leaves the same text up to such white space.
-/
namespace TableStore.Sql

open Text

variable {α β γ δ ε : Type}

/-! Outcomes -/

/-- Both outcomes are the same error, or their results are related. -/
inductive Match (R : α → β → Prop) : Except ε α → Except ε β → Prop
  | ok {a : α} {b : β} (h : R a b) : Match R (.ok a) (.ok b)
  | error {e : ε} : Match R (.error e) (.error e)

namespace Match

variable {R : α → β → Prop} {S : γ → δ → Prop} {x : Except ε α} {y : Except ε β}

theorem bind {f : α → Except ε γ} {g : β → Except ε δ} (h : Match R x y)
    (hf : ∀ a b, x = .ok a → R a b → Match S (f a) (g b)) : Match S (x >>= f) (y >>= g) := by
  cases h with
  | ok h => exact hf _ _ rfl h
  | error => exact .error

end Match

theorem eq_of_match {x y : Except ε α} (h : Match (· = ·) x y) : x = y := by
  cases h with
  | ok h => exact congrArg _ h
  | error => rfl

/-! Scanners -/

/-- The second text is the first with white space after it. -/
def Padded (cs cs' : List Char) : Prop := ∃ blanks, cs' = cs ++ blanks ∧ ∀ b ∈ blanks, isBlank b = true

/-- Two results are the same but for white space after the text that is left. -/
def Alike (p q : α × List Char) : Prop := p.1 = q.1 ∧ Padded p.2 q.2

variable {cs cs' : List Char}

theorem Padded.refl (cs : List Char) : Padded cs cs := ⟨[], by simp, by simp⟩

theorem Padded.skipBlanks (h : Padded cs cs') :
    (Text.skipBlanks cs = [] ∧ Text.skipBlanks cs' = []) ∨
    ∃ c r r', Text.skipBlanks cs = c :: r ∧ Text.skipBlanks cs' = c :: r' ∧ Padded r r' := by
  obtain ⟨blanks, rfl, hb⟩ := h
  cases hs : Text.skipBlanks cs with
  | nil =>
    refine .inl ⟨rfl, skipBlanks_eq_nil_iff.2 ?_⟩
    exact List.forall_mem_append.2 ⟨skipBlanks_eq_nil_iff.1 hs, hb⟩
  | cons c r =>
    refine .inr ⟨c, r, r ++ blanks, rfl, ?_, blanks, rfl, hb⟩
    rw [Text.skipBlanks] at hs ⊢
    rw [List.dropWhile_append, hs]
    rfl

theorem Padded.takeWhile (h : Padded cs cs') :
    cs'.takeWhile isWordChar = cs.takeWhile isWordChar ∧
    Padded (cs.dropWhile isWordChar) (cs'.dropWhile isWordChar) := by
  obtain ⟨blanks, rfl, hb⟩ := h
  have hsplit : cs = cs.takeWhile isWordChar ++ cs.dropWhile isWordChar :=
    List.takeWhile_append_dropWhile.symm
  have hw : ∀ c ∈ cs.takeWhile isWordChar, isWordChar c = true := fun c => List.mem_takeWhile_imp
  have ha : EndsWord (cs.dropWhile isWordChar ++ blanks) := by
    cases hd : cs.dropWhile isWordChar with
    | nil => exact endsWord_of_blanks hb
    | cons c r => exact (hd ▸ endsWord_dropWhile cs : EndsWord (c :: r)).append (by simp) blanks
  have he : cs ++ blanks = cs.takeWhile isWordChar ++ (cs.dropWhile isWordChar ++ blanks) := by
    rw [← List.append_assoc, ← hsplit]
  rw [he, takeWhile_isWordChar hw ha, dropWhile_isWordChar hw ha]
  exact ⟨rfl, blanks, rfl, hb⟩

theorem match_takeQuoted (h : Padded cs cs') : Match Alike (takeQuoted cs) (takeQuoted cs') := by
  obtain ⟨blanks, rfl, hb⟩ := h
  cases hq : takeQuoted cs with
  | ok p =>
    obtain ⟨s, rest⟩ := p
    obtain ⟨rfl, hs⟩ := takeQuoted_eq_ok_iff.1 hq
    have hq' : takeQuoted (s.toList ++ '"' :: rest ++ blanks) = .ok (s, rest ++ blanks) :=
      takeQuoted_eq_ok_iff.2 ⟨by simp, hs⟩
    rw [hq']
    exact .ok ⟨rfl, blanks, rfl, hb⟩
  | error e =>
    unfold takeQuoted at hq ⊢
    split at hq
    · rename_i hd
      cases hq
      have hd' : (cs ++ blanks).dropWhile (· != '"') = [] := by
        rw [List.dropWhile_eq_nil_iff] at hd ⊢
        refine List.forall_mem_append.2 ⟨hd, fun c hc => ?_⟩
        rw [bne_iff_ne]
        rintro rfl
        exact absurd (hb _ hc) (by decide)
      rw [hd']
      exact .error
    · cases hq

theorem match_next? (h : Padded cs cs') : Match (Option.Rel Alike) (next? cs) (next? cs') := by
  unfold next?
  obtain ⟨hs, hs'⟩ | ⟨c, r, r', hs, hs', hr⟩ := h.skipBlanks
  · rw [hs, hs']
    exact .ok .none
  · rw [hs, hs']
    dsimp only
    split
    · refine (match_takeQuoted hr).bind ?_
      rintro ⟨s, m⟩ ⟨_, m'⟩ - ⟨rfl, hm⟩
      exact .ok (.some ⟨rfl, hm⟩)
    · split
      · exact .ok (.some ⟨rfl, hr⟩)
      · obtain ⟨blanks, rfl, hb⟩ := hr
        obtain ⟨ht, hd⟩ := Padded.takeWhile ⟨blanks, List.cons_append.symm, hb⟩
        rw [ht]
        exact .ok (.some ⟨rfl, hd⟩)

theorem rel_name? (h : Padded cs cs') : Option.Rel Alike (name? cs) (name? cs') := by
  have hs : Padded (skipBlanks cs) (skipBlanks cs') := by
    obtain ⟨hs, hs'⟩ | ⟨c, r, r', hs, hs', blanks, rfl, hb⟩ := h.skipBlanks
    · rw [hs, hs']
      exact .refl []
    · rw [hs, hs']
      exact ⟨blanks, rfl, hb⟩
  obtain ⟨ht, hd⟩ := hs.takeWhile
  unfold name?
  rw [ht]
  split
  · exact .none
  · exact .some ⟨rfl, hd⟩

theorem padded_takeBare (slot : Slot) (b : Bool) (h : Padded cs cs') :
    Padded (takeBare slot b cs).1 (takeBare slot b cs').1 ∧
    Padded (takeBare slot b cs).2 (takeBare slot b cs').2 := by
  obtain ⟨blanks, rfl, hb⟩ := h
  induction cs generalizing b with
  | nil =>
    have hp : slot.Passes b blanks [] := by
      refine ⟨fun hm => absurd (hb _ hm) (by decide), fun c hc => ?_, fun _ p q hpq _ _ => ?_⟩
      · by_contra hs
        have hn := isBlank_of_stopsAt (eq_true_of_ne_false hs)
        rw [hb c hc] at hn
        cases hn
      · refine startsWithKeyword_of_endsWord (endsWord_of_blanks fun c hc => hb c ?_)
        rw [hpq]
        simpa using Or.inr hc
    have ht := takeBare_of_passes hp (by simp [Slot.Stops])
    rw [List.append_nil] at ht
    rw [List.nil_append, ht]
    exact ⟨⟨blanks, rfl, hb⟩, .refl []⟩
  | cons c cs ih =>
    rw [List.cons_append, takeBare_cons, takeBare_cons, ← List.cons_append,
      startsWithKeyword_append .where (c :: cs) (endsWord_of_blanks hb)]
    split
    · exact ⟨.refl [], blanks, rfl, hb⟩
    · obtain ⟨⟨bs, h₁, hbs⟩, h₂⟩ := ih (isBlank c)
      exact ⟨⟨bs, by simp [h₁], hbs⟩, h₂⟩

theorem match_literal? (slot : Slot) (h : Padded cs cs') :
    Match Alike (literal? slot cs) (literal? slot cs') := by
  unfold literal?
  obtain ⟨hs, hs'⟩ | ⟨c, r, r', hs, hs', hr⟩ := h.skipBlanks
  · rw [hs, hs']
    exact .ok ⟨rfl, .refl []⟩
  · rw [hs, hs']
    dsimp only
    split
    · refine (match_takeQuoted hr).bind ?_
      rintro ⟨s, m⟩ ⟨_, m'⟩ - ⟨rfl, hm⟩
      exact .ok ⟨rfl, hm⟩
    · obtain ⟨blanks, rfl, hb⟩ := hr
      obtain ⟨⟨bs, hw, hbs⟩, hm⟩ := padded_takeBare slot true ⟨blanks, List.cons_append.symm, hb⟩
      refine .ok ⟨?_, hm⟩
      rw [hw, Literal.ofBare?, Literal.ofBare?, dropTrailingBlanks_append hbs]

/-! Readers -/

theorem match_next (h : Padded cs cs') : Match Alike (next cs) (next cs') := by
  have hm := match_next? h
  unfold next
  generalize next? cs = x at hm ⊢
  generalize next? cs' = y at hm ⊢
  cases hm with
  | error => exact .error
  | ok ho =>
    cases ho with
    | none => exact .error
    | some ha => exact .ok ha

theorem match_expect (t : Token) (h : Padded cs cs') : Match Padded (expect t cs) (expect t cs') := by
  refine (match_next h).bind ?_
  rintro ⟨got, m⟩ ⟨_, m'⟩ - ⟨rfl, hm⟩
  dsimp only
  split
  · exact .ok hm
  · exact .error

theorem rel_accept? (t : Token) (h : Padded cs cs') :
    Option.Rel Padded (accept? t cs) (accept? t cs') := by
  have hm := match_next? h
  unfold accept?
  generalize next? cs = x at hm ⊢
  generalize next? cs' = y at hm ⊢
  cases hm with
  | error => exact .none
  | ok ho =>
    cases ho with
    | none => exact .none
    | @some p q ha =>
      obtain ⟨got, m⟩ := p
      obtain ⟨_, m'⟩ := q
      obtain ⟨rfl, ha⟩ := ha
      dsimp only
      split
      · exact .some ha
      · exact .none

theorem match_name (h : Padded cs cs') : Match Alike (name cs) (name cs') := by
  have hr := rel_name? h
  unfold name
  generalize name? cs = x at hr ⊢
  generalize name? cs' = y at hr ⊢
  cases hr with
  | some ha => exact .ok ha
  | none =>
    refine (match_next h).bind ?_
    rintro ⟨got, m⟩ ⟨_, m'⟩ - ⟨rfl, -⟩
    exact .error

theorem match_literal (slot : Slot) (h : Padded cs cs') :
    Match Alike (literal slot cs) (literal slot cs') := by
  have hm := match_literal? slot h
  unfold literal
  generalize literal? slot cs = x at hm ⊢
  generalize literal? slot cs' = y at hm ⊢
  cases hm with
  | error => exact .error
  | @ok p q ha =>
    obtain ⟨o, m⟩ := p
    obtain ⟨_, m'⟩ := q
    obtain ⟨rfl, ha⟩ := ha
    cases o with
    | some l => exact .ok ⟨rfl, ha⟩
    | none =>
      refine (match_next ha).bind ?_
      rintro ⟨got, k⟩ ⟨_, k'⟩ - ⟨rfl, -⟩
      exact .error

/-- A reader gives the same result for a text with white space after it. -/
def IgnoresPadding (r : List Char → Except SyntaxError (α × List Char)) : Prop :=
  ∀ {cs cs' : List Char}, Padded cs cs' → Match Alike (r cs) (r cs')

theorem ignoresPadding_commaList {item : List Char → Except SyntaxError (α × List Char)}
    (hi : IgnoresPadding item)
    (shrinks : ∀ {cs x rest}, item cs = .ok (x, rest) → rest.length ≤ cs.length) :
    IgnoresPadding (commaList item shrinks) := by
  intro cs cs' h
  -- on the length of the text, which every item and every comma shortens
  induction hn : cs.length using Nat.strong_induction_on generalizing cs cs' with
  | _ n ih =>
    rw [commaList_eq, commaList_eq]
    refine (hi h).bind ?_
    rintro ⟨x, m⟩ ⟨_, m'⟩ hx ⟨rfl, hm⟩
    have hr := rel_accept? .comma hm
    dsimp only
    generalize accept? .comma m' = o' at hr ⊢
    cases ha : accept? .comma m with
    | none =>
      rw [ha] at hr
      cases hr
      exact .ok ⟨rfl, hm⟩
    | some k =>
      rw [ha] at hr
      cases hr with
      | some hk =>
        have hlt : k.length < n := hn ▸ Nat.lt_of_lt_of_le (length_accept?_lt ha) (shrinks hx)
        refine (ih _ hlt hk rfl).bind ?_
        rintro ⟨xs, rest⟩ ⟨_, rest'⟩ - ⟨rfl, hrest⟩
        exact .ok ⟨rfl, hrest⟩

theorem ignoresPadding_valueList : IgnoresPadding valueList := by
  intro cs cs' h
  induction hn : cs.length using Nat.strong_induction_on generalizing cs cs' with
  | _ n ih =>
    rw [valueList_eq, valueList_eq]
    refine (match_literal .listItem h).bind ?_
    rintro ⟨l, m⟩ ⟨_, m'⟩ hx ⟨rfl, hm⟩
    refine (match_next hm).bind ?_
    rintro ⟨got, k⟩ ⟨_, k'⟩ hk ⟨rfl, hkk⟩
    dsimp only at hkk ⊢
    split
    · exact .ok ⟨rfl, hkk⟩
    · have hlt : k.length < n :=
        hn ▸ Nat.lt_of_lt_of_le (length_next_lt hk) (length_literal_le hx)
      refine (ih _ hlt hkk rfl).bind ?_
      rintro ⟨ls, rest⟩ ⟨_, rest'⟩ - ⟨rfl, hrest⟩
      exact .ok ⟨rfl, hrest⟩
    · exact .error

theorem ignoresPadding_columnSpec : IgnoresPadding columnSpec := by
  intro cs cs' h
  refine (match_name h).bind ?_
  rintro ⟨column, m⟩ ⟨_, m'⟩ - ⟨rfl, hm⟩
  refine (match_name hm).bind ?_
  rintro ⟨word, k⟩ ⟨_, k'⟩ - ⟨rfl, hk⟩
  dsimp only
  split
  · exact .ok ⟨rfl, hk⟩
  · exact .error

theorem ignoresPadding_assignment : IgnoresPadding assignment := by
  intro cs cs' h
  refine (match_name h).bind ?_
  rintro ⟨column, m⟩ ⟨_, m'⟩ - ⟨rfl, hm⟩
  refine (match_expect .equal hm).bind fun k k' _ hk => ?_
  refine (match_literal .assignment hk).bind ?_
  rintro ⟨l, rest⟩ ⟨_, rest'⟩ - ⟨rfl, hrest⟩
  exact .ok ⟨rfl, hrest⟩

theorem ignoresPadding_condition : IgnoresPadding condition := by
  intro cs cs' h
  have hr := rel_accept? (.keyword .where) h
  unfold condition
  generalize accept? (.keyword .where) cs = x at hr ⊢
  generalize accept? (.keyword .where) cs' = y at hr ⊢
  cases hr with
  | none => exact .ok ⟨rfl, h⟩
  | some hm₀ =>
    refine (match_name hm₀).bind ?_
    rintro ⟨column, m⟩ ⟨_, m'⟩ - ⟨rfl, hm⟩
    refine (match_expect .equal hm).bind fun k k' _ hk => ?_
    refine (match_literal .condition hk).bind ?_
    rintro ⟨l, rest⟩ ⟨_, rest'⟩ - ⟨rfl, hrest⟩
    exact .ok ⟨rfl, hrest⟩

namespace Statement

theorem ignoresPadding_create : IgnoresPadding create := by
  intro cs cs' h
  refine (match_next h).bind ?_
  rintro ⟨object, m⟩ ⟨_, m'⟩ - ⟨rfl, hm⟩
  dsimp only at hm ⊢
  split
  · refine (match_name hm).bind ?_
    rintro ⟨n, k⟩ ⟨_, k'⟩ - ⟨rfl, hk⟩
    exact .ok ⟨rfl, hk⟩
  · refine (match_name hm).bind ?_
    rintro ⟨n, m₁⟩ ⟨_, m₁'⟩ - ⟨rfl, h₁⟩
    refine (match_expect .openParen h₁).bind fun m₂ m₂' _ h₂ => ?_
    refine (ignoresPadding_commaList ignoresPadding_columnSpec _ h₂).bind ?_
    rintro ⟨columns, m₃⟩ ⟨_, m₃'⟩ - ⟨rfl, h₃⟩
    refine (match_expect .closeParen h₃).bind fun k k' _ hk => ?_
    exact .ok ⟨rfl, hk⟩
  · exact .error

theorem ignoresPadding_drop : IgnoresPadding drop := by
  intro cs cs' h
  refine (match_next h).bind ?_
  rintro ⟨object, m⟩ ⟨_, m'⟩ - ⟨rfl, hm⟩
  dsimp only at hm ⊢
  split
  · refine (match_name hm).bind ?_
    rintro ⟨n, k⟩ ⟨_, k'⟩ - ⟨rfl, hk⟩
    exact .ok ⟨rfl, hk⟩
  · refine (match_name hm).bind ?_
    rintro ⟨n, k⟩ ⟨_, k'⟩ - ⟨rfl, hk⟩
    exact .ok ⟨rfl, hk⟩
  · exact .error

theorem ignoresPadding_useName : IgnoresPadding useName := by
  intro cs cs' h
  refine (match_name h).bind ?_
  rintro ⟨n, k⟩ ⟨_, k'⟩ - ⟨rfl, hk⟩
  exact .ok ⟨rfl, hk⟩

theorem ignoresPadding_showObjects : IgnoresPadding showObjects := by
  intro cs cs' h
  refine (match_next h).bind ?_
  rintro ⟨object, m⟩ ⟨_, m'⟩ - ⟨rfl, hm⟩
  dsimp only at hm ⊢
  split
  · exact .ok ⟨rfl, hm⟩
  · exact .ok ⟨rfl, hm⟩
  · exact .error

theorem ignoresPadding_insertInto : IgnoresPadding insertInto := by
  intro cs cs' h
  refine (match_expect (.keyword .into) h).bind fun m₁ m₁' _ h₁ => ?_
  refine (match_name h₁).bind ?_
  rintro ⟨table, m₂⟩ ⟨_, m₂'⟩ - ⟨rfl, h₂⟩
  refine (match_expect (.keyword .values) h₂).bind fun m₃ m₃' _ h₃ => ?_
  refine (match_expect .openParen h₃).bind fun m₄ m₄' _ h₄ => ?_
  refine (ignoresPadding_valueList h₄).bind ?_
  rintro ⟨values, k⟩ ⟨_, k'⟩ - ⟨rfl, hk⟩
  exact .ok ⟨rfl, hk⟩

theorem ignoresPadding_selection : IgnoresPadding selection := by
  intro cs cs' h
  have hr := rel_accept? .asterisk h
  unfold selection
  generalize accept? .asterisk cs = x at hr ⊢
  generalize accept? .asterisk cs' = y at hr ⊢
  cases hr with
  | some hm => exact .ok ⟨rfl, hm⟩
  | none =>
    refine (ignoresPadding_commaList match_name _ h).bind ?_
    rintro ⟨columns, k⟩ ⟨_, k'⟩ - ⟨rfl, hk⟩
    exact .ok ⟨rfl, hk⟩

theorem ignoresPadding_selectFrom : IgnoresPadding selectFrom := by
  intro cs cs' h
  refine (ignoresPadding_selection h).bind ?_
  rintro ⟨columns, m₁⟩ ⟨_, m₁'⟩ - ⟨rfl, h₁⟩
  refine (match_expect (.keyword .from) h₁).bind fun m₂ m₂' _ h₂ => ?_
  refine (match_name h₂).bind ?_
  rintro ⟨table, m₃⟩ ⟨_, m₃'⟩ - ⟨rfl, h₃⟩
  refine (ignoresPadding_condition h₃).bind ?_
  rintro ⟨c, k⟩ ⟨_, k'⟩ - ⟨rfl, hk⟩
  exact .ok ⟨rfl, hk⟩

theorem ignoresPadding_updateSet : IgnoresPadding updateSet := by
  intro cs cs' h
  refine (match_name h).bind ?_
  rintro ⟨table, m₁⟩ ⟨_, m₁'⟩ - ⟨rfl, h₁⟩
  refine (match_expect (.keyword .set) h₁).bind fun m₂ m₂' _ h₂ => ?_
  refine (ignoresPadding_commaList ignoresPadding_assignment _ h₂).bind ?_
  rintro ⟨assignments, m₃⟩ ⟨_, m₃'⟩ - ⟨rfl, h₃⟩
  refine (ignoresPadding_condition h₃).bind ?_
  rintro ⟨c, k⟩ ⟨_, k'⟩ - ⟨rfl, hk⟩
  exact .ok ⟨rfl, hk⟩

theorem ignoresPadding_deleteFrom : IgnoresPadding deleteFrom := by
  intro cs cs' h
  refine (match_expect (.keyword .from) h).bind fun m₁ m₁' _ h₁ => ?_
  refine (match_name h₁).bind ?_
  rintro ⟨table, m₂⟩ ⟨_, m₂'⟩ - ⟨rfl, h₂⟩
  refine (ignoresPadding_condition h₂).bind ?_
  rintro ⟨c, k⟩ ⟨_, k'⟩ - ⟨rfl, hk⟩
  exact .ok ⟨rfl, hk⟩

theorem ignoresPadding_read : IgnoresPadding read := by
  intro cs cs' h
  refine (match_next h).bind ?_
  rintro ⟨command, m⟩ ⟨_, m'⟩ - ⟨rfl, hm⟩
  dsimp only at hm ⊢
  split
  · exact ignoresPadding_create hm
  · exact ignoresPadding_drop hm
  · exact ignoresPadding_useName hm
  · exact ignoresPadding_showObjects hm
  · exact ignoresPadding_insertInto hm
  · exact ignoresPadding_selectFrom hm
  · exact ignoresPadding_updateSet hm
  · exact ignoresPadding_deleteFrom hm
  · exact .ok ⟨rfl, hm⟩
  · exact .error

/-! Texts -/

theorem parse_congr {text text' : String} (h : Padded text.toList text'.toList) :
    parse text = parse text' := by
  refine eq_of_match ((ignoresPadding_read h).bind ?_)
  rintro ⟨s, m⟩ ⟨_, m'⟩ - ⟨rfl, hm⟩
  refine (match_expect .semicolon hm).bind fun k k' _ hk => ?_
  refine (match_next? hk).bind fun o o' _ ho => ?_
  cases ho with
  | none => exact .ok rfl
  | @some p q ha =>
    obtain ⟨got, rest⟩ := p
    obtain ⟨_, rest'⟩ := q
    obtain ⟨rfl, -⟩ := ha
    exact .error

theorem read_skipBlanks (cs : List Char) : read (skipBlanks cs) = read cs := by
  have hn : next (skipBlanks cs) = next cs := by
    unfold next next?
    rw [skipBlanks_skipBlanks]
  rw [read, read, hn]

/-- White space around a text is no part of it. -/
theorem parse_trim (text : String) : parse (trim text) = parse text := by
  obtain ⟨blanks, hs, hb⟩ := exists_dropTrailingBlanks (skipBlanks text.toList)
  have hp : Padded (trim text).toList (skipBlanks text.toList) :=
    ⟨blanks, by rw [trim, String.toList_ofList, ← hs], hb⟩
  have hskip : parse (String.ofList (skipBlanks text.toList)) = parse text := by
    rw [parse, parse, String.toList_ofList, read_skipBlanks]
  rw [← hskip]
  exact parse_congr (by rwa [String.toList_ofList])

end Statement

end TableStore.Sql

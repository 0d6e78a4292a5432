import TableStore.Proofs.Grammar

/-!
# Scanning

What the scanners take from a text is the lexeme that it begins with, and each lexeme that a text
begins with is taken. Only a literal may take more: the white space after it.
-/
namespace TableStore.Sql

open Text

variable {cs after : List Char}

/-! Words -/

theorem takeWhile_isWordChar {w : List Char} (hw : ∀ c ∈ w, isWordChar c = true)
    (ha : EndsWord after) : (w ++ after).takeWhile isWordChar = w := by
  rw [List.takeWhile_append_of_pos hw]
  cases after with
  | nil => simp
  | cons c cs =>
    rw [endsWord_cons] at ha
    rw [List.takeWhile_cons_of_neg (by simp [ha]), List.append_nil]

theorem dropWhile_isWordChar {w : List Char} (hw : ∀ c ∈ w, isWordChar c = true)
    (ha : EndsWord after) : (w ++ after).dropWhile isWordChar = after := by
  have h := List.takeWhile_append_dropWhile (p := isWordChar) (l := w ++ after)
  rw [takeWhile_isWordChar hw ha] at h
  exact List.append_cancel_left h

theorem endsWord_dropWhile (cs : List Char) : EndsWord (cs.dropWhile isWordChar) := by
  intro c hc
  have h := List.head?_dropWhile_not isWordChar cs
  rwa [hc] at h

theorem begins_name_iff {s : String} : Begins (.name s) cs after ↔
    skipBlanks cs = s.toList ++ after ∧ IsWord s.toList ∧ EndsWord after := by
  constructor
  · rintro ⟨w, hw, h⟩
    cases h with
    | name hs ha => exact ⟨hw, hs, ha⟩
  · rintro ⟨hw, hs, ha⟩
    exact ⟨s.toList, hw, .name hs ha⟩

theorem name?_eq_some_iff {s : String} :
    name? cs = some (s, after) ↔ Begins (.name s) cs after := by
  rw [begins_name_iff]
  constructor
  · intro h
    unfold name? at h
    split at h
    · cases h
    · rename_i hne
      cases h
      rw [String.toList_ofList]
      exact ⟨List.takeWhile_append_dropWhile.symm, ⟨hne, fun c => List.mem_takeWhile_imp⟩,
        endsWord_dropWhile _⟩
  · rintro ⟨hw, ⟨hne, hs⟩, ha⟩
    unfold name?
    rw [hw, takeWhile_isWordChar hs ha, dropWhile_isWordChar hs ha]
    split
    · rename_i he
      exact absurd he hne
    · rw [String.ofList_toList]

theorem name_eq_ok_iff {s : String} : name cs = .ok (s, after) ↔ Begins (.name s) cs after := by
  rw [← name?_eq_some_iff]
  exact ⟨name_eq_ok, fun h => by rw [name, h]⟩

theorem Keyword.ofWord?_eq_some_iff {s : String} {k : Keyword} :
    ofWord? s = some k ↔ upper s = k.spelling := by
  unfold ofWord?
  constructor
  · intro h
    have hk := List.find?_some h
    exact (eq_of_beq hk).symm
  · intro h
    rw [h]
    cases k <;> rfl

theorem ofWord?_eq_some_iff {s : String} {t : DataType} :
    DataType.ofWord? s = some t ↔ upper s = t.name := by
  unfold DataType.ofWord? DataType.ofName?
  constructor
  · intro h
    have ht := List.find?_some h
    exact (eq_of_beq ht).symm
  · intro h
    rw [h]
    exact DataType.ofName?_name t

theorem begins_keyword_iff {k : Keyword} : Begins (.token (.keyword k)) cs after ↔
    ∃ s, Begins (.name s) cs after ∧ Keyword.ofWord? s = some k := by
  simp only [begins_name_iff, Keyword.ofWord?_eq_some_iff]
  constructor
  · rintro ⟨w, hw, h⟩
    cases h with
    | keyword hs hk ha => exact ⟨String.ofList w, by simpa using ⟨hw, hs, ha⟩, hk⟩
    | sign ht =>
      unfold Token.ofSign? at ht
      split at ht <;> cases ht
  · rintro ⟨s, ⟨hw, hs, ha⟩, hk⟩
    exact ⟨s.toList, hw, .keyword hs (by rwa [String.ofList_toList]) ha⟩

theorem begins_type_iff {t : DataType} : Begins (.type t) cs after ↔
    ∃ s, Begins (.name s) cs after ∧ DataType.ofWord? s = some t := by
  simp only [begins_name_iff, ofWord?_eq_some_iff]
  constructor
  · rintro ⟨w, hw, h⟩
    cases h with
    | type hs ht ha => exact ⟨String.ofList w, by simpa using ⟨hw, hs, ha⟩, ht⟩
  · rintro ⟨s, ⟨hw, hs, ha⟩, ht⟩
    exact ⟨s.toList, hw, .type hs (by rwa [String.ofList_toList]) ha⟩

/-! Tokens -/

/-- Keywords and signs, which a production can ask for. -/
def Token.IsFixed : Token → Prop
  | word _ | quoted _ => False
  | _ => True

theorem Token.isFixed_of_ofSign? {c : Char} {t : Token} (h : Token.ofSign? c = some t) :
    t.IsFixed ∧ ∀ k, t ≠ .keyword k := by
  unfold Token.ofSign? at h
  split at h
  case h_7 => cases h
  all_goals
    cases h
    exact ⟨trivial, by simp⟩

theorem Token.ofWord_eq_keyword_iff {s : String} {k : Keyword} :
    Token.ofWord s = .keyword k ↔ Keyword.ofWord? s = some k := by
  unfold Token.ofWord
  split
  · rename_i h
    simp [h]
  · rename_i h
    simp [h]

theorem next?_of_name {s : String} (h : Begins (.name s) cs after) :
    next? cs = .ok (some (.ofWord s, after)) := by
  obtain ⟨hw, ⟨hne, hs⟩, ha⟩ := begins_name_iff.1 h
  obtain ⟨c, w, hc⟩ := List.exists_cons_of_ne_nil hne
  have hd := dropWhile_isWordChar hs ha
  have ht := takeWhile_isWordChar hs ha
  rw [hc, List.cons_append] at hw ht hd
  have hcw : isWordChar c = true := hs c (by rw [hc]; simp)
  simp only [isWordChar, Bool.and_eq_true, Bool.not_eq_true', bne_iff_ne, isSign] at hcw
  unfold next?
  rw [hw]
  dsimp only
  rw [if_neg hcw.2, Option.isSome_eq_false_iff.1 hcw.1.2 |> Option.isNone_iff_eq_none.1]
  dsimp only
  rw [ht, hd, ← hc, String.ofList_toList]

theorem next?_of_sign {t : Token} {c : Char} (hc : skipBlanks cs = c :: after)
    (ht : Token.ofSign? c = some t) : next? cs = .ok (some (t, after)) := by
  have hq : c ≠ '"' := by
    rintro rfl
    cases ht
  unfold next?
  rw [hc]
  dsimp only
  rw [if_neg hq, ht]

/-- The next token is a string, a sign or a word. -/
theorem next?_cases {t : Token} (h : next? cs = .ok (some (t, after))) :
    (∃ s, t = .quoted s) ∨ (∃ c, skipBlanks cs = c :: after ∧ Token.ofSign? c = some t) ∨
    ∃ s, Begins (.name s) cs after ∧ t = .ofWord s := by
  unfold next? at h
  split at h
  · cases h
  · rename_i c r hc
    split at h
    · obtain ⟨⟨s, r'⟩, -, h⟩ := bind_eq_ok_iff.1 h
      cases h
      exact .inl ⟨s, rfl⟩
    · rename_i hq
      split at h
      · rename_i t' ht
        cases h
        exact .inr (.inl ⟨c, hc, ht⟩)
      · rename_i ht
        have hb := List.head?_dropWhile_not isBlank cs
        rw [← skipBlanks, hc] at hb
        have hcw : isWordChar c = true := by
          have hb' : isBlank c = false := hb
          simp [isWordChar, isSign, hb', ht, hq]
        simp only [Except.ok.injEq, Option.some.injEq, Prod.mk.injEq] at h
        obtain ⟨rfl, rfl⟩ := h
        refine .inr (.inr ⟨_, begins_name_iff.2 ⟨?_, ⟨?_, ?_⟩, endsWord_dropWhile _⟩, rfl⟩)
        · rw [hc, String.toList_ofList, List.takeWhile_append_dropWhile]
        · rw [String.toList_ofList, List.takeWhile_cons_of_pos hcw]
          simp
        · rw [String.toList_ofList]
          exact fun c => List.mem_takeWhile_imp

theorem isFixed_of_begins {t : Token} (h : Begins (.token t) cs after) : t.IsFixed := by
  obtain ⟨w, -, h⟩ := h
  cases h with
  | keyword _ _ _ => trivial
  | sign ht => exact (Token.isFixed_of_ofSign? ht).1

theorem next?_of_begins {t : Token} (h : Begins (.token t) cs after) :
    next? cs = .ok (some (t, after)) := by
  obtain ⟨w, hw, hs⟩ := h
  cases hs with
  | keyword hk hu ha =>
    obtain ⟨s, hs, hk⟩ := begins_keyword_iff.1 ⟨w, hw, .keyword hk hu ha⟩
    rw [next?_of_name hs, Token.ofWord_eq_keyword_iff.2 hk]
  | sign ht => exact next?_of_sign hw ht

theorem next?_eq_some_iff {t : Token} (ht : t.IsFixed) :
    next? cs = .ok (some (t, after)) ↔ Begins (.token t) cs after := by
  refine ⟨fun h => ?_, next?_of_begins⟩
  rcases next?_cases h with ⟨s, rfl⟩ | ⟨c, hc, hs⟩ | ⟨s, hs, rfl⟩
  · exact ht.elim
  · exact ⟨[c], hc, .sign hs⟩
  · unfold Token.ofWord at ht ⊢
    split at ht
    · rename_i k hk
      exact begins_keyword_iff.2 ⟨s, hs, hk⟩
    · exact ht.elim

theorem next_eq_ok_iff {t : Token} (ht : t.IsFixed) :
    next cs = .ok (t, after) ↔ Begins (.token t) cs after := by
  rw [← next?_eq_some_iff ht]
  unfold next
  split <;> simp_all

theorem expect_eq_ok_iff {t : Token} (ht : t.IsFixed) :
    expect t cs = .ok after ↔ Begins (.token t) cs after := by
  rw [← next_eq_ok_iff ht]
  refine ⟨expect_eq_ok, fun h => ?_⟩
  unfold expect
  rw [h]
  exact if_pos rfl

theorem accept?_eq_some_iff {t : Token} (ht : t.IsFixed) :
    accept? t cs = some after ↔ Begins (.token t) cs after := by
  rw [← next?_eq_some_iff ht]
  unfold accept?
  split
  · rename_i got rest hn
    rw [hn]
    split
    · rename_i hg
      simp [hg]
    · rename_i hg
      simp [hg]
  · rename_i hn
    refine ⟨by simp, fun h => ?_⟩
    exact absurd h (hn t after)

/-- A token is not accepted where another one comes. -/
theorem accept?_of_next? {t got : Token} (h : next? cs = .ok (some (got, after))) (hne : got ≠ t) :
    accept? t cs = none := by
  unfold accept?
  rw [h]
  exact if_neg hne

theorem skipBlanks_eq_nil_iff : skipBlanks cs = [] ↔ ∀ c ∈ cs, isBlank c = true :=
  List.dropWhile_eq_nil_iff

/-- There is no next token only in white space. -/
theorem next?_eq_none_iff : next? cs = .ok none ↔ ∀ c ∈ cs, isBlank c = true := by
  rw [← skipBlanks_eq_nil_iff]
  unfold next?
  constructor
  · intro h
    split at h
    · assumption
    · split at h
      · obtain ⟨_, _, h⟩ := bind_eq_ok_iff.1 h
        cases h
      · split at h
        · cases h
        · cases h
  · intro h
    rw [h]

/-! Literals -/

theorem takeQuoted_eq_ok_iff {s : String} :
    takeQuoted cs = .ok (s, after) ↔ cs = s.toList ++ '"' :: after ∧ '"' ∉ s.toList := by
  unfold takeQuoted
  constructor
  · intro h
    split at h
    · cases h
    · rename_i c r hd
      have hc := List.head?_dropWhile_not (· != '"') cs
      rw [hd] at hc
      obtain rfl : c = '"' := by simpa using hc
      cases h
      refine ⟨?_, ?_⟩
      · rw [String.toList_ofList, ← hd, List.takeWhile_append_dropWhile]
      · rw [String.toList_ofList]
        intro hm
        simpa using List.mem_takeWhile_imp hm
  · rintro ⟨rfl, hs⟩
    have hp : ∀ c ∈ s.toList, (c != '"') = true := by
      intro c hc
      rw [bne_iff_ne]
      rintro rfl
      exact hs hc
    rw [List.dropWhile_append_of_pos hp, List.takeWhile_append_of_pos hp]
    simp

/-- The text ends with white space; for an empty text this is given. -/
def endsBlank (b : Bool) (w : List Char) : Bool := w.getLast?.elim b isBlank

theorem endsBlank_cons (b : Bool) (c : Char) (w : List Char) :
    endsBlank b (c :: w) = endsBlank (isBlank c) w := by
  cases hw : w.getLast? <;> simp [endsBlank, List.getLast?_cons, hw]

/-- A literal without quotes goes on through the first text, in front of the second. -/
structure Slot.Passes (slot : Slot) (b : Bool) (w after : List Char) : Prop where
  noQuote : '"' ∉ w
  noStop : ∀ c ∈ w, slot.stopsAt c = false
  noWhere : slot = .assignment → ∀ p q, w = p ++ q → q ≠ [] → endsBlank b p = true →
    startsWithKeyword .where (q ++ after) = false

/-- A literal without quotes ends in front of the text. -/
def Slot.Stops (slot : Slot) (b : Bool) (after : List Char) : Prop :=
  ∀ c ∈ after.head?, c = '"' ∨ slot.stopsAt c = true ∨
    slot = .assignment ∧ b = true ∧ startsWithKeyword .where after = true

theorem takeBare_cons (slot : Slot) (b : Bool) (c : Char) (cs : List Char) :
    takeBare slot b (c :: cs) =
      if c = '"' ∨ slot.stopsAt c = true ∨
          slot = .assignment ∧ b = true ∧ startsWithKeyword .where (c :: cs) = true then
        ([], c :: cs)
      else (c :: (takeBare slot (isBlank c) cs).1, (takeBare slot (isBlank c) cs).2) := by
  rw [takeBare]
  simp only [Bool.or_eq_true, Bool.and_eq_true, beq_iff_eq, or_assoc, and_assoc]

theorem takeBare_of_stops {slot : Slot} {b : Bool} (h : slot.Stops b after) :
    takeBare slot b after = ([], after) := by
  cases after with
  | nil => rfl
  | cons c cs => rw [takeBare_cons, if_pos (h c rfl)]

theorem takeBare_of_passes {slot : Slot} {b : Bool} {w : List Char}
    (hp : slot.Passes b w after) (hs : slot.Stops (endsBlank b w) after) :
    takeBare slot b (w ++ after) = (w, after) := by
  induction w generalizing b with
  | nil => exact takeBare_of_stops hs
  | cons c w ih =>
    have hc : ¬(c = '"' ∨ slot.stopsAt c = true ∨
        slot = .assignment ∧ b = true ∧ startsWithKeyword .where (c :: (w ++ after)) = true) := by
      rintro (rfl | h | ⟨ha, hb, hk⟩)
      · exact hp.noQuote (by simp)
      · rw [hp.noStop c (by simp)] at h
        cases h
      · rw [← List.cons_append, hp.noWhere ha [] (c :: w) rfl (by simp) hb] at hk
        cases hk
    have hw : slot.Passes (isBlank c) w after := by
      refine ⟨fun hm => hp.noQuote (by simp [hm]), fun c hm => hp.noStop c (by simp [hm]), ?_⟩
      rintro ha p q rfl hq hb
      exact hp.noWhere ha (c :: p) q rfl hq (by rw [endsBlank_cons, hb])
    rw [endsBlank_cons] at hs
    rw [List.cons_append, takeBare_cons, if_neg hc, ih hw hs]

theorem takeBare_spec {slot : Slot} {b : Bool} {w : List Char}
    (h : takeBare slot b cs = (w, after)) :
    cs = w ++ after ∧ slot.Passes b w after ∧ slot.Stops (endsBlank b w) after := by
  induction cs generalizing b w with
  | nil =>
    cases h
    exact ⟨rfl, ⟨by simp, by simp, by simp⟩, by simp [Slot.Stops]⟩
  | cons c cs ih =>
    rw [takeBare_cons] at h
    split at h
    · rename_i hc
      cases h
      refine ⟨rfl, ⟨by simp, by simp, by simp⟩, ?_⟩
      rintro _ ⟨⟩
      exact hc
    · rename_i hc
      cases h
      obtain ⟨he, hp, hs⟩ := ih (b := isBlank c) rfl
      rw [not_or, not_or] at hc
      rw [endsBlank_cons]
      refine ⟨by rw [List.cons_append, ← he], ⟨?_, ?_, ?_⟩, hs⟩
      · rw [List.mem_cons, not_or]
        exact ⟨Ne.symm hc.1, hp.noQuote⟩
      · rw [List.forall_mem_cons]
        exact ⟨by simpa using hc.2.1, hp.noStop⟩
      · intro ha p q hpq hq hb
        cases p with
        | nil =>
          rw [List.nil_append] at hpq
          rw [← hpq, List.cons_append, ← he]
          by_contra hk
          exact hc.2.2 ⟨ha, hb, by simpa using hk⟩
        | cons d p =>
          obtain ⟨rfl, hw⟩ := List.cons.inj hpq
          rw [endsBlank_cons] at hb
          exact hp.noWhere ha p q hw hq hb

theorem isSign_of_stopsAt {slot : Slot} {c : Char} (h : slot.stopsAt c = true) :
    isSign c = true := by
  have hc : c = ',' ∨ c = ')' ∨ c = ';' := by
    cases slot <;> simp [Slot.stopsAt] at h <;> tauto
  rcases hc with rfl | rfl | rfl <;> rfl

theorem isWordChar_of_stopsAt {slot : Slot} {c : Char} (h : slot.stopsAt c = true) :
    isWordChar c = false := by
  simp [isWordChar, isSign_of_stopsAt h]

theorem startsWithKeyword_append (k : Keyword) (q : List Char) (ha : EndsWord after) :
    startsWithKeyword k (q ++ after) = startsWithKeyword k q := by
  have ht : after.takeWhile isWordChar = [] := takeWhile_isWordChar (w := []) (by simp) ha
  have hq : (q ++ after).takeWhile isWordChar = q.takeWhile isWordChar := by
    rw [List.takeWhile_append, ht, List.append_nil]
    split
    · rename_i hl
      exact ((List.takeWhile_prefix isWordChar).eq_of_length hl).symm
    · rfl
  rw [startsWithKeyword, startsWithKeyword, hq]

theorem startsWithKeyword_of_endsWord {k : Keyword} (ha : EndsWord after) :
    startsWithKeyword k after = false := by
  rw [← List.nil_append after, startsWithKeyword_append k [] ha]
  cases k <;> rfl

theorem exists_dropTrailingBlanks (w : List Char) :
    ∃ blanks, w = dropTrailingBlanks w ++ blanks ∧ ∀ b ∈ blanks, isBlank b = true := by
  refine ⟨(w.reverse.takeWhile isBlank).reverse, ?_, fun b hb => ?_⟩
  · rw [dropTrailingBlanks, ← List.reverse_append, skipBlanks, List.takeWhile_append_dropWhile,
      List.reverse_reverse]
  · exact List.mem_takeWhile_imp (List.mem_reverse.1 hb)

theorem dropTrailingBlanks_append {blanks : List Char} (hb : ∀ b ∈ blanks, isBlank b = true)
    (w : List Char) : dropTrailingBlanks (w ++ blanks) = dropTrailingBlanks w := by
  rw [dropTrailingBlanks, List.reverse_append, skipBlanks_append_of_blanks (by simpa using hb),
    dropTrailingBlanks]

/-- The last word of a literal without quotes is at its end where the literal ends. -/
theorem endsWord_of_stops {slot : Slot} {v blanks : List Char} (hne : v ≠ [])
    (hd : dropTrailingBlanks v = v) (hb : ∀ b ∈ blanks, isBlank b = true)
    (hs : slot.Stops (endsBlank true (v ++ blanks)) after) : EndsWord (blanks ++ after) := by
  cases blanks with
  | cons d blanks => exact endsWord_cons.2 (isWordChar_of_isBlank (hb d (by simp)))
  | nil =>
    rw [List.append_nil, endsBlank, List.getLast?_eq_getLast_of_ne_nil hne, Option.elim_some] at hs
    have hl : isBlank (v.getLast hne) = false := by
      simpa using List.rdropWhile_eq_self_iff.1 hd hne
    intro c hc
    rcases hs c hc with rfl | hc | ⟨-, he, -⟩
    · rfl
    · exact isWordChar_of_stopsAt hc
    · rw [hl] at he
      cases he

theorem admits_of_passes {slot : Slot} {v blanks : List Char}
    (hp : slot.Passes true (v ++ blanks) after) (ha : EndsWord (blanks ++ after)) :
    slot.Admits v := by
  refine ⟨fun hm => hp.noQuote (by simp [hm]), fun c hm => hp.noStop c (by simp [hm]), ?_⟩
  rintro hslot p q rfl hl
  cases q with
  | nil => exact startsWithKeyword_of_endsWord endsWord_nil
  | cons c q =>
    rw [← startsWithKeyword_append .where (c :: q) ha, ← List.append_assoc]
    refine hp.noWhere hslot p (c :: q ++ blanks) (by rw [List.append_assoc]) (by simp) ?_
    unfold endsBlank
    cases hlast : p.getLast? with
    | none => rfl
    | some e => exact hl e hlast

/-- The white space at the end of a literal without quotes does not belong to it. -/
theorem spells_of_ofBare? {slot : Slot} {l : Literal} {c : Char} {w : List Char}
    (hc : isBlank c = false) (h : Literal.ofBare? (c :: w) = some l)
    (hp : slot.Passes true (c :: w) after) (hs : slot.Stops (endsBlank true (c :: w)) after) :
    ∃ v blanks, c :: w = v ++ blanks ∧ (∀ b ∈ blanks, isBlank b = true) ∧
      Spells (.literal slot l) v (blanks ++ after) := by
  obtain ⟨blanks, hv, hb⟩ := exists_dropTrailingBlanks (c :: w)
  have hd := dropTrailingBlanks_dropTrailingBlanks (c :: w)
  unfold Literal.ofBare? at h
  generalize dropTrailingBlanks (c :: w) = v at h hv hd
  refine ⟨v, blanks, hv, hb, ?_⟩
  have hne : v ≠ [] := by
    rintro rfl
    cases h
  have hskip : skipBlanks v = v := by
    obtain ⟨d, v', rfl⟩ := List.exists_cons_of_ne_nil hne
    obtain ⟨rfl, -⟩ := List.cons.inj hv
    exact skipBlanks_cons_of_not hc v'
  rw [hv] at hp hs
  have ha := endsWord_of_stops hne hd hb hs
  split at h
  · exact absurd rfl hne
  · split at h
    · rename_i hn
      cases h
      exact .null hn ha
    · rename_i hn
      cases h
      have ht : (String.ofList v).toList = v := String.toList_ofList
      have hproper : IsProper (String.ofList v) :=
        ⟨by simpa using hne, trim_eq_self_iff.2 (by rw [ht]; exact ⟨hskip, hd⟩)⟩
      have hadmits : slot.Admits (String.ofList v).toList := by
        rw [ht]
        exact admits_of_passes hp ha
      have hspells := Spells.bare hproper (by simpa using hn) hadmits ha
      rwa [ht] at hspells

theorem begins_of_literal {slot : Slot} {l : Literal} {mid : List Char}
    (h : literal slot cs = .ok (l, mid)) :
    ∃ after, Begins (.literal slot l) cs after ∧ skipBlanks after = skipBlanks mid := by
  have h := literal_eq_ok h
  unfold literal? at h
  split at h
  · cases h
  · rename_i c r hc
    split at h
    · rename_i hq
      obtain ⟨⟨s, r'⟩, hr, h⟩ := bind_eq_ok_iff.1 h
      cases h
      obtain ⟨rfl, hs⟩ := takeQuoted_eq_ok_iff.1 hr
      exact ⟨mid, ⟨_, by rw [hc, hq]; simp, .quoted hs⟩, rfl⟩
    · obtain ⟨w, m, hw⟩ : ∃ w m, takeBare slot true (c :: r) = (w, m) := ⟨_, _, rfl⟩
      obtain ⟨he, hp, hs⟩ := takeBare_spec hw
      simp only [hw, Except.ok.injEq, Prod.mk.injEq] at h
      obtain ⟨hl, rfl⟩ := h
      have hb := List.head?_dropWhile_not isBlank cs
      rw [← skipBlanks, hc] at hb
      cases w with
      | nil => cases hl
      | cons d w =>
        obtain ⟨rfl, -⟩ := List.cons.inj he
        obtain ⟨v, blanks, hv, hbs, hspells⟩ := spells_of_ofBare? hb hl hp hs
        refine ⟨blanks ++ m, ⟨v, ?_, hspells⟩, skipBlanks_append_of_blanks hbs m⟩
        rw [hc, he, hv, List.append_assoc]

/-- What can come after a literal in its place. -/
def Slot.EndsAt : Slot → Lexeme → Prop
  | .listItem, l => l = .token .comma ∨ l = .token .closeParen
  | .assignment, l => l = .token .comma ∨ l = .token (.keyword .where) ∨ l = .token .semicolon
  | .condition, l => l = .token .semicolon

theorem Token.text_of_ofSign? {c : Char} {t : Token} (h : Token.ofSign? c = some t) :
    t.text.toList = [c] := by
  unfold Token.ofSign? at h
  split at h
  case h_7 => cases h
  all_goals
    cases h
    rfl

theorem Spells.eq_text {t : Token} {w : List Char} (h : Spells (.token t) w after)
    (ht : ∀ k, t ≠ .keyword k) : w = t.text.toList := by
  cases h with
  | keyword _ _ _ => exact absurd rfl (ht _)
  | sign hs => exact (Token.text_of_ofSign? hs).symm

theorem startsWithKeyword_of_begins {k : Keyword} (h : Begins (.token (.keyword k)) cs after) :
    startsWithKeyword k (skipBlanks cs) = true ∧ ¬EndsWord (skipBlanks cs) := by
  obtain ⟨s, hs, hk⟩ := begins_keyword_iff.1 h
  obtain ⟨hw, ⟨hne, hs⟩, ha⟩ := begins_name_iff.1 hs
  have hstart : startsWithKeyword k (skipBlanks cs) = true := by
    rw [hw, startsWithKeyword_append k _ ha, startsWithKeyword, List.takeWhile_eq_self_iff.2 hs,
      String.ofList_toList, hk, beq_self_eq_true]
  refine ⟨hstart, fun he => ?_⟩
  rw [startsWithKeyword_of_endsWord he] at hstart
  cases hstart

theorem endsBlank_append {b : Bool} {v blanks : List Char} (hne : blanks ≠ [])
    (hb : ∀ b ∈ blanks, isBlank b = true) : endsBlank b (v ++ blanks) = true := by
  rw [endsBlank, List.getLast?_append_of_ne_nil v hne, List.getLast?_eq_getLast_of_ne_nil hne]
  exact hb _ (List.getLast_mem hne)

/-- What can come after a literal ends it, when it has no quotes. -/
theorem stops_of_endsAt {slot : Slot} {n : Lexeme} {v blanks tail : List Char}
    (hb : ∀ b ∈ blanks, isBlank b = true) (ha : EndsWord (blanks ++ tail)) (hn : slot.EndsAt n)
    (ht : skipBlanks tail = tail) (h : Begins n tail after) :
    slot.Stops (endsBlank true (v ++ blanks)) tail := by
  have hsign : ∀ {t : Token} {c : Char}, Begins (.token t) tail after → (∀ k, t ≠ .keyword k) →
      t.text.toList = [c] → slot.stopsAt c = true →
      slot.Stops (endsBlank true (v ++ blanks)) tail := by
    rintro t c ⟨w, hw, hs⟩ hk htext hc d hd
    rw [ht, hs.eq_text hk, htext] at hw
    rw [hw] at hd
    cases hd
    exact .inr (.inl hc)
  cases slot with
  | listItem =>
    rcases hn with rfl | rfl
    · exact hsign h (by simp) rfl rfl
    · exact hsign h (by simp) rfl rfl
  | assignment =>
    rcases hn with rfl | rfl | rfl
    · exact hsign h (by simp) rfl rfl
    · obtain ⟨hk, hw⟩ := startsWithKeyword_of_begins h
      rw [ht] at hk hw
      have hne : blanks ≠ [] := by
        rintro rfl
        exact hw ha
      exact fun _ _ => .inr (.inr ⟨rfl, endsBlank_append hne hb, hk⟩)
    · exact hsign h (by simp) rfl rfl
  | condition =>
    cases hn
    exact hsign h (by simp) rfl rfl

theorem isBlank_of_stopsAt {slot : Slot} {c : Char} (h : slot.stopsAt c = true) :
    isBlank c = false := by
  have hs := isSign_of_stopsAt h
  obtain ⟨t, ht⟩ := Option.isSome_iff_exists.1 hs
  exact isBlank_of_ofSign? ht

theorem passes_of_admits {slot : Slot} {v blanks tail : List Char} (hv : slot.Admits v)
    (hb : ∀ b ∈ blanks, isBlank b = true) (ha : EndsWord (blanks ++ tail)) :
    slot.Passes true (v ++ blanks) tail := by
  refine ⟨fun hm => ?_, fun c hm => ?_, fun hslot p q hpq hq hl => ?_⟩
  · rcases List.mem_append.1 hm with hm | hm
    · exact hv.noQuote hm
    · exact absurd (hb _ hm) (by decide)
  · rcases List.mem_append.1 hm with hm | hm
    · exact hv.noStop c hm
    · by_contra hc
      have hnot := isBlank_of_stopsAt (eq_true_of_ne_false hc)
      rw [hb c hm] at hnot
      cases hnot
  · rcases List.append_eq_append_iff.1 hpq with ⟨a, rfl, rfl⟩ | ⟨a, rfl, rfl⟩
    · obtain ⟨d, q, rfl⟩ := List.exists_cons_of_ne_nil hq
      exact startsWithKeyword_of_endsWord (endsWord_cons.2 (isWordChar_of_isBlank (hb d (by simp))))
    · rw [List.append_assoc, startsWithKeyword_append .where a ha]
      refine hv.noWhere hslot p a rfl fun c hc => ?_
      rwa [endsBlank, hc] at hl

/-- A literal without quotes goes up to the lexeme that comes after it, white space included. -/
theorem takeBare_of_admits {slot : Slot} {n : Lexeme} {ls : List Lexeme} {v rest : List Char}
    (hv : slot.Admits v) (ha : EndsWord after) (hn : slot.EndsAt n)
    (hl : Laid Spells (n :: ls) after rest) :
    ∃ blanks, (∀ b ∈ blanks, isBlank b = true) ∧
      takeBare slot true (v ++ after) = (v ++ blanks, skipBlanks after) := by
  have hb : ∀ b ∈ after.takeWhile isBlank, isBlank b = true := fun b => List.mem_takeWhile_imp
  have hsplit : after = after.takeWhile isBlank ++ skipBlanks after :=
    List.takeWhile_append_dropWhile.symm
  have hi := skipBlanks_skipBlanks after
  obtain ⟨after', hn', -⟩ := Laid.cons_iff.1 hl
  rw [hsplit] at ha
  refine ⟨_, hb, ?_⟩
  conv_lhs => rw [hsplit, ← List.append_assoc]
  exact takeBare_of_passes (passes_of_admits hv hb ha)
    (stops_of_endsAt hb ha hn hi (hn'.congr hi.symm))

theorem admits_of_null {slot : Slot} {w : List Char}
    (h : sameAsciiLetters (String.ofList w) "null" = true) : slot.Admits w := by
  obtain ⟨ha, hu⟩ := upper_of_null h
  have hw := isWord_of_null h
  refine ⟨fun hm => ?_, fun c hc => ?_, ?_⟩
  · exact absurd (hw.2 _ hm) (by decide)
  · by_contra hs
    have hc := hw.2 c hc
    rw [isWordChar_of_stopsAt (eq_true_of_ne_false hs)] at hc
    cases hc
  · rintro - p q rfl hl
    by_contra hk
    cases hp : p.getLast? with
    | none =>
      obtain rfl := List.getLast?_eq_none_iff.1 hp
      rw [List.nil_append] at hu hw
      have hk := eq_of_beq (eq_true_of_ne_false hk)
      rw [List.takeWhile_eq_self_iff.2 hw.2, Keyword.ofWord?_eq_some_iff, hu] at hk
      exact absurd hk (by decide)
    | some c =>
      have hc := hw.2 c (List.mem_append_left q (List.mem_of_getLast? hp))
      rw [isWordChar_of_isBlank (hl c hp)] at hc
      cases hc

theorem dropTrailingBlanks_of_isWord {w : List Char} (h : IsWord w) : dropTrailingBlanks w = w := by
  refine List.rdropWhile_eq_self_iff.2 fun hne => ?_
  rw [isBlank_of_isWordChar (h.2 _ (List.getLast_mem hne))]
  exact Bool.false_ne_true

theorem literal_of_bare {slot : Slot} {l : Literal} {n : Lexeme} {ls : List Lexeme}
    {v rest : List Char} (hc : skipBlanks cs = v ++ after) (hv : slot.Admits v)
    (hd : dropTrailingBlanks v = v) (hl : Literal.ofBare? v = some l) (ha : EndsWord after)
    (hn : slot.EndsAt n) (h : Laid Spells (n :: ls) after rest) :
    literal slot cs = .ok (l, skipBlanks after) := by
  obtain ⟨blanks, hb, ht⟩ := takeBare_of_admits hv ha hn h
  have hbare : Literal.ofBare? (v ++ blanks) = some l := by
    rw [← hl, Literal.ofBare?, Literal.ofBare?, dropTrailingBlanks_append hb]
  cases v with
  | nil => cases hl
  | cons c v =>
    have hq : c ≠ '"' := by
      rintro rfl
      exact hv.noQuote (by simp)
    rw [List.cons_append] at hc ht
    unfold literal literal?
    rw [hc]
    dsimp only
    rw [if_neg hq, ht, hbare]

theorem literal_of_begins {slot : Slot} {l : Literal} {n : Lexeme} {ls : List Lexeme}
    {rest : List Char} (h : Begins (.literal slot l) cs after) (hn : slot.EndsAt n)
    (hl : Laid Spells (n :: ls) after rest) :
    ∃ mid, literal slot cs = .ok (l, mid) ∧ skipBlanks mid = skipBlanks after := by
  have hi := skipBlanks_skipBlanks after
  obtain ⟨w, hw, hs⟩ := h
  cases hs with
  | @quoted _ s _ hs =>
    refine ⟨after, ?_, rfl⟩
    have hr : takeQuoted (s.toList ++ '"' :: after) = .ok (s, after) :=
      takeQuoted_eq_ok_iff.2 ⟨rfl, hs⟩
    rw [List.append_assoc, List.cons_append, List.singleton_append] at hw
    unfold literal literal?
    rw [hw]
    dsimp only
    rw [if_pos rfl, hr]
    rfl
  | null hnull ha =>
    have hword := isWord_of_null hnull
    have hd := dropTrailingBlanks_of_isWord hword
    refine ⟨_, literal_of_bare hw (admits_of_null hnull) hd ?_ ha hn hl, hi⟩
    unfold Literal.ofBare?
    rw [hd]
    split
    · exact absurd rfl hword.1
    · exact if_pos hnull
  | @bare _ s _ hs hnull hb ha =>
    have hd := (trim_eq_self_iff.1 hs.2).2
    refine ⟨_, literal_of_bare hw hb hd ?_ ha hn hl, hi⟩
    unfold Literal.ofBare?
    rw [hd]
    split
    · rename_i he
      exact absurd he (by simpa using hs.1)
    · rw [String.ofList_toList, hnull]
      rfl

end TableStore.Sql

import Mathlib.Data.List.Forall2
import TableStore.Proofs.Parsing

/-!
# Letter case in statements

A text in which letters of ASCII change their case is read alike: it is no statement if it was
none, and else a statement of the same form in which names and literals have the same letters.
-/
namespace TableStore.Sql

open Text

/-! Statements that differ in letter case -/

/-- The same literal, or texts for which this holds. -/
inductive Literal.Recased (same : String → String → Prop) : Literal → Literal → Prop
  | null : Recased same .null .null
  | text {s s' : String} (h : same s s') : Recased same (.text s) (.text s')

structure ColumnSpec.Recased (same : String → String → Prop) (c c' : ColumnSpec) : Prop where
  name : same c.name c'.name
  type : c.type = c'.type

structure Assignment.Recased (same : String → String → Prop) (a a' : Assignment) : Prop where
  column : SameLetters a.column a'.column
  value : a.value.Recased same a'.value

structure Condition.Recased (same : String → String → Prop) (w w' : Condition) : Prop where
  column : SameLetters w.column w'.column
  value : w.value.Recased same w'.value

/-- Statements of one form. The columns that they refer to are the same but for the case of letters
in their names; all other names and the literals are the same in the given sense. -/
inductive Statement.Recased (same : String → String → Prop) : Statement → Statement → Prop
  | createDatabase {n n' : String} (h : same n n') :
    Recased same (.createDatabase n) (.createDatabase n')
  | dropDatabase {n n' : String} (h : same n n') : Recased same (.dropDatabase n) (.dropDatabase n')
  | useDatabase {n n' : String} (h : same n n') : Recased same (.useDatabase n) (.useDatabase n')
  | showDatabases : Recased same .showDatabases .showDatabases
  | createTable {n n' : String} {cs cs' : List ColumnSpec} (h : same n n')
    (hc : List.Forall₂ (ColumnSpec.Recased same) cs cs') :
    Recased same (.createTable n cs) (.createTable n' cs')
  | dropTable {n n' : String} (h : same n n') : Recased same (.dropTable n) (.dropTable n')
  | showTables : Recased same .showTables .showTables
  | insert {n n' : String} {vs vs' : List Literal} (h : same n n')
    (hv : List.Forall₂ (Literal.Recased same) vs vs') : Recased same (.insert n vs) (.insert n' vs')
  | select {n n' : String} {cs cs' : Option (List String)} {w w' : Option Condition}
    (h : same n n') (hc : Option.Rel (List.Forall₂ SameLetters) cs cs')
    (hw : Option.Rel (Condition.Recased same) w w') :
    Recased same (.select n cs w) (.select n' cs' w')
  | update {n n' : String} {as as' : List Assignment} {w w' : Option Condition} (h : same n n')
    (ha : List.Forall₂ (Assignment.Recased same) as as')
    (hw : Option.Rel (Condition.Recased same) w w') :
    Recased same (.update n as w) (.update n' as' w')
  | delete {n n' : String} {w w' : Option Condition} (h : same n n')
    (hw : Option.Rel (Condition.Recased same) w w') : Recased same (.delete n w) (.delete n' w')
  | help : Recased same .help .help

/-! Characters and words -/

theorem isWordChar_toLower (c : Char) : isWordChar c.toLower = isWordChar c :=
  apply_toLower (fun _ => isWordChar_of_isAlpha) c

theorem ofSign?_toLower (c : Char) : Token.ofSign? c.toLower = Token.ofSign? c := by
  refine apply_toLower (x := none) (fun d hd => ?_) c
  unfold Token.ofSign?
  split
  case h_7 => rfl
  all_goals cases hd

theorem beq_quote_toLower (c : Char) : (c.toLower == '"') = (c == '"') := by
  refine apply_toLower (f := (· == '"')) (x := false) (fun d hd => ?_) c
  rw [beq_eq_false_iff_ne]
  rintro rfl
  cases hd

theorem stopsAt_toLower (slot : Slot) (c : Char) : slot.stopsAt c.toLower = slot.stopsAt c := by
  refine apply_toLower (x := false) (fun d hd => eq_false_of_ne_true fun hs => ?_) c
  have hw := isWordChar_of_isAlpha hd
  rw [isWordChar_of_stopsAt hs] at hw
  cases hw

theorem skipBlanks_eq_self_iff {cs : List Char} :
    skipBlanks cs = cs ↔ ∀ c ∈ cs.head?, isBlank c = false := by
  cases cs with
  | nil => simp [skipBlanks]
  | cons c cs =>
    cases hc : isBlank c with
    | false => simp [skipBlanks, hc]
    | true =>
      refine iff_of_false (fun h => ?_) (by simp [hc])
      have hl := congrArg List.length h
      have := length_dropWhile_le isBlank cs
      rw [skipBlanks, List.dropWhile_cons_of_pos hc, List.length_cons] at hl
      omega

theorem dropTrailingBlanks_eq_self_iff {cs : List Char} :
    dropTrailingBlanks cs = cs ↔ ∀ c ∈ cs.getLast?, isBlank c = false := by
  rw [dropTrailingBlanks, List.reverse_eq_iff, skipBlanks_eq_self_iff, List.head?_reverse]

theorem forall_mem_option_congr {o o' : Option Char} (h : o.map Char.toLower = o'.map Char.toLower)
    {p : Char → Bool} (hp : ∀ c, p c.toLower = p c) {b : Bool} (ho : ∀ c ∈ o, p c = b) :
    ∀ c ∈ o', p c = b := by
  rintro c rfl
  obtain ⟨d, rfl, hd⟩ := Option.map_eq_some_iff.1 h
  rw [← hp c, ← hd, hp d, ho d rfl]

section Words

variable {w w' : List Char} (h : w.map Char.toLower = w'.map Char.toLower)

include h

theorem sameLetters_ofList : SameLetters (String.ofList w) (String.ofList w') := by
  rwa [SameLetters, String.toList_ofList, String.toList_ofList]

theorem forall_mem_congr {p : Char → Bool} (hp : ∀ c, p c.toLower = p c) {b : Bool}
    (hw : ∀ c ∈ w, p c = b) : ∀ c ∈ w', p c = b := by
  intro c hc
  have hm : c.toLower ∈ w.map Char.toLower := h ▸ List.mem_map_of_mem hc
  obtain ⟨d, hd, he⟩ := List.mem_map.1 hm
  rw [← hp c, ← he, hp d, hw d hd]

theorem head?_congr : w.head?.map Char.toLower = w'.head?.map Char.toLower := by
  rw [← List.head?_map, h, List.head?_map]

theorem getLast?_congr : w.getLast?.map Char.toLower = w'.getLast?.map Char.toLower := by
  rw [← List.getLast?_map, h, List.getLast?_map]

theorem isWord_congr (hw : IsWord w) : IsWord w' := by
  refine ⟨?_, forall_mem_congr h isWordChar_toLower hw.2⟩
  rintro rfl
  exact hw.1 (List.map_eq_nil_iff.1 h)

theorem endsWord_congr (hw : EndsWord w) : EndsWord w' :=
  forall_mem_option_congr (head?_congr h) isWordChar_toLower hw

theorem quote_notMem_congr (hw : '"' ∉ w) : '"' ∉ w' := by
  have hq : ∀ c ∈ w, (c == '"') = false := fun c hc =>
    beq_eq_false_iff_ne.2 fun he => hw (he ▸ hc)
  intro hm
  have := forall_mem_congr h beq_quote_toLower hq '"' hm
  simp at this

theorem startsWithKeyword_congr (k : Keyword) :
    startsWithKeyword k w = startsWithKeyword k w' := by
  have hp : isWordChar ∘ Char.toLower = isWordChar := funext isWordChar_toLower
  have ht : (w.takeWhile isWordChar).map Char.toLower =
      (w'.takeWhile isWordChar).map Char.toLower := by
    have hm : ∀ cs : List Char, (cs.takeWhile isWordChar).map Char.toLower =
        (cs.map Char.toLower).takeWhile isWordChar := by
      intro cs
      rw [List.takeWhile_map, hp]
    rw [hm, h, ← hm]
  rw [startsWithKeyword, startsWithKeyword, Keyword.ofWord?, Keyword.ofWord?,
    (sameLetters_ofList ht).upper_eq]

theorem Slot.Admits.congr {slot : Slot} (hw : slot.Admits w) : slot.Admits w' := by
  refine ⟨quote_notMem_congr h hw.noQuote, forall_mem_congr h (stopsAt_toLower slot) hw.noStop,
    fun hs p' q' he hp' => ?_⟩
  rw [he, List.map_append, List.map_eq_append_iff] at h
  obtain ⟨p, q, he, hp, hq⟩ := h
  rw [← startsWithKeyword_congr hq]
  exact hw.noWhere hs p q he (forall_mem_option_congr (getLast?_congr hp.symm) isBlank_toLower hp')

end Words

theorem isProper_congr {s s' : String} (h : SameLetters s s') (hs : IsProper s) : IsProper s' := by
  obtain ⟨hne, ht⟩ := hs
  rw [trim_eq_self_iff, skipBlanks_eq_self_iff, dropTrailingBlanks_eq_self_iff] at ht
  refine ⟨?_, ?_⟩
  · rintro rfl
    exact hne (String.toList_eq_nil_iff.1 (List.map_eq_nil_iff.1 h))
  · rw [trim_eq_self_iff, skipBlanks_eq_self_iff, dropTrailingBlanks_eq_self_iff]
    exact ⟨forall_mem_option_congr (head?_congr h) isBlank_toLower ht.1,
      forall_mem_option_congr (getLast?_congr h) isBlank_toLower ht.2⟩

/-! Lexemes -/

/-- The same lexeme, or a name or literal with the same letters. -/
inductive Lexeme.Recased : Lexeme → Lexeme → Prop
  | token (t : Token) : Recased (.token t) (.token t)
  | type (t : DataType) : Recased (.type t) (.type t)
  | name {s s' : String} (h : SameLetters s s') : Recased (.name s) (.name s')
  | literal (slot : Slot) {l l' : Literal} (h : l.Recased SameLetters l') :
    Recased (.literal slot l) (.literal slot l')

/-- A spelling in which letters change their case is one of the same lexeme with the letters so
changed. -/
theorem Spells.recased {l : Lexeme} {w w' after after' : List Char} (h : Spells l w after)
    (hw : w.map Char.toLower = w'.map Char.toLower)
    (ha : after.map Char.toLower = after'.map Char.toLower) :
    ∃ l', l.Recased l' ∧ Spells l' w' after' := by
  cases h with
  | keyword hword hk he =>
    exact ⟨_, .token _, .keyword (isWord_congr hw hword)
      ((sameLetters_ofList hw).upper_eq.symm.trans hk) (endsWord_congr ha he)⟩
  | sign ht =>
    obtain ⟨c', rfl, hc⟩ := List.map_eq_singleton_iff.1 hw.symm
    rw [← ofSign?_toLower, ← hc, ofSign?_toLower] at ht
    exact ⟨_, .token _, .sign ht⟩
  | type hword ht he =>
    exact ⟨_, .type _, .type (isWord_congr hw hword)
      ((sameLetters_ofList hw).upper_eq.symm.trans ht) (endsWord_congr ha he)⟩
  | name hs he =>
    obtain ⟨s', rfl⟩ : ∃ s' : String, w' = s'.toList := ⟨.ofList w', String.toList_ofList.symm⟩
    exact ⟨_, .name hw, .name (isWord_congr hw hs) (endsWord_congr ha he)⟩
  | quoted hs =>
    rw [List.cons_append, List.map_cons, List.map_append] at hw
    obtain ⟨c, w₁, rfl, hc, hw⟩ := List.map_eq_cons_iff.1 hw.symm
    obtain ⟨w₂, w₃, rfl, hs', hd⟩ := List.map_eq_append_iff.1 hw
    obtain ⟨d, rfl, hq⟩ := List.map_eq_singleton_iff.1 hd
    obtain ⟨s', rfl⟩ : ∃ s' : String, w₂ = s'.toList := ⟨.ofList w₂, String.toList_ofList.symm⟩
    have hquote : ∀ {c : Char}, c.toLower = Char.toLower '"' → c = '"' := fun {c} hc => by
      have hb := beq_quote_toLower c
      rw [hc] at hb
      exact beq_iff_eq.1 hb.symm
    obtain rfl := hquote hc
    obtain rfl := hquote hq
    exact ⟨_, .literal _ (.text hs'.symm), .quoted (quote_notMem_congr hs'.symm hs)⟩
  | null hn he =>
    refine ⟨_, .literal _ .null, .null ?_ (endsWord_congr ha he)⟩
    rw [sameAsciiLetters_iff] at hn ⊢
    exact (sameLetters_ofList hw).symm.trans hn
  | bare hs hn hb he =>
    obtain ⟨s', rfl⟩ : ∃ s' : String, w' = s'.toList := ⟨.ofList w', String.toList_ofList.symm⟩
    refine ⟨_, .literal _ (.text hw),
      .bare (isProper_congr hw hs) ?_ (hb.congr hw) (endsWord_congr ha he)⟩
    rw [← Bool.not_eq_true, sameAsciiLetters_iff] at hn ⊢
    exact fun hn' => hn (Eq.trans hw hn')

/-- So a text in which letters change their case is laid out alike. -/
theorem Laid.recased {ls : List Lexeme} {cs cs' rest : List Char} (h : Laid Spells ls cs rest)
    (hc : cs.map Char.toLower = cs'.map Char.toLower) :
    ∃ ls' rest', List.Forall₂ Lexeme.Recased ls ls' ∧ Laid Spells ls' cs' rest' ∧
      rest.map Char.toLower = rest'.map Char.toLower := by
  induction ls generalizing cs cs' with
  | nil =>
    cases h
    exact ⟨[], cs', .nil, rfl, hc⟩
  | cons l ls ih =>
    obtain ⟨blanks, w, after, rfl, hb, hs, hl⟩ := h
    rw [List.map_append, List.map_append] at hc
    obtain ⟨blanks', cs₁, rfl, hblanks, hc⟩ := List.map_eq_append_iff.1 hc.symm
    obtain ⟨w', after', rfl, hw, ha⟩ := List.map_eq_append_iff.1 hc
    obtain ⟨l', hl', hs'⟩ := hs.recased hw.symm ha.symm
    obtain ⟨ls', rest', hls, hl, hr⟩ := ih hl ha.symm
    exact ⟨l' :: ls', rest', .cons hl' hls,
      ⟨blanks', w', after', rfl, forall_mem_congr hblanks.symm isBlank_toLower hb, hs', hl⟩, hr⟩

/-! Statements from lexemes -/

section Statements

variable {α β : Type} {R : α → α → Prop} {lexemes : α → List Lexeme}

theorem forall₂_append_left_iff {R : α → β → Prop} {xs ys : List α} {zs : List β} :
    List.Forall₂ R (xs ++ ys) zs ↔
      ∃ xs' ys', zs = xs' ++ ys' ∧ List.Forall₂ R xs xs' ∧ List.Forall₂ R ys ys' := by
  constructor
  · intro h
    induction xs generalizing zs with
    | nil => exact ⟨[], zs, rfl, .nil, h⟩
    | cons x xs ih =>
      rw [List.cons_append] at h
      obtain ⟨z, zs, hx, hzs, rfl⟩ := List.forall₂_cons_left_iff.1 h
      obtain ⟨xs', ys', rfl, hxs, hys⟩ := ih hzs
      exact ⟨z :: xs', ys', rfl, .cons hx hxs, hys⟩
  · rintro ⟨xs', ys', rfl, hxs, hys⟩
    exact List.rel_append hxs hys

namespace Lexeme

variable {ls ls' : List Lexeme}

theorem recased_token_cons {t : Token} : List.Forall₂ Recased (.token t :: ls) ls' ↔
    ∃ ls₁, ls' = .token t :: ls₁ ∧ List.Forall₂ Recased ls ls₁ := by
  constructor
  · rintro (_ | ⟨⟨⟩, h⟩)
    exact ⟨_, rfl, h⟩
  · rintro ⟨ls₁, rfl, h⟩
    exact .cons (.token t) h

theorem recased_name_cons {s : String} : List.Forall₂ Recased (.name s :: ls) ls' ↔
    ∃ s' ls₁, ls' = .name s' :: ls₁ ∧ SameLetters s s' ∧ List.Forall₂ Recased ls ls₁ := by
  constructor
  · rintro (_ | ⟨_ | _ | hs, h⟩)
    exact ⟨_, _, rfl, hs, h⟩
  · rintro ⟨s', ls₁, rfl, hs, h⟩
    exact .cons (.name hs) h

theorem recased_literal_cons {slot : Slot} {v : Literal} :
    List.Forall₂ Recased (.literal slot v :: ls) ls' ↔
      ∃ (v' : Literal) (ls₁ : List Lexeme), ls' = .literal slot v' :: ls₁ ∧
        v.Recased SameLetters v' ∧ List.Forall₂ Recased ls ls₁ := by
  constructor
  · rintro (_ | ⟨_ | _ | _ | ⟨_, hv⟩, h⟩)
    exact ⟨_, _, rfl, hv, h⟩
  · rintro ⟨v', ls₁, rfl, hv, h⟩
    exact .cons (.literal slot hv) h

end Lexeme

/-- The lexemes of a thing with letters in another case are those of a related thing. -/
def Carries (lexemes : α → List Lexeme) (R : α → α → Prop) : Prop :=
  ∀ x ls, List.Forall₂ Lexeme.Recased (lexemes x) ls → ∃ x', ls = lexemes x' ∧ R x x'

theorem Carries.separated (h : Carries lexemes R) :
    Carries (separated lexemes) (List.Forall₂ R) := by
  intro xs ls hls
  induction xs generalizing ls with
  | nil => exact ⟨[], List.forall₂_nil_left_iff.1 hls, .nil⟩
  | cons x xs ih =>
    by_cases hxs : xs = []
    · subst hxs
      rw [separated_singleton] at hls
      obtain ⟨x', rfl, hx⟩ := h x ls hls
      exact ⟨[x'], (separated_singleton lexemes x').symm, .cons hx .nil⟩
    · rw [separated_cons lexemes x hxs] at hls
      obtain ⟨ls₁, ls₂, rfl, hls₁, hls₂⟩ := forall₂_append_left_iff.1 hls
      obtain ⟨ls₃, rfl, hls₃⟩ := Lexeme.recased_token_cons.1 hls₂
      obtain ⟨x', rfl, hx⟩ := h x ls₁ hls₁
      obtain ⟨xs', rfl, hxs'⟩ := ih ls₃ hls₃
      have hne : xs' ≠ [] := by
        rintro rfl
        exact hxs (List.forall₂_nil_right_iff.1 hxs')
      exact ⟨x' :: xs', (separated_cons lexemes x' hne).symm, .cons hx hxs'⟩

end Statements

theorem carries_columnSpec : Carries ColumnSpec.lexemes (ColumnSpec.Recased SameLetters) := by
  intro c ls h
  obtain ⟨n, _, rfl, hn, h₁⟩ := Lexeme.recased_name_cons.1 h
  rcases h₁ with _ | ⟨⟨⟩, _ | _⟩
  exact ⟨⟨n, c.type⟩, rfl, hn, rfl⟩

theorem carries_assignment : Carries Assignment.lexemes (Assignment.Recased SameLetters) := by
  intro a ls h
  obtain ⟨n, _, rfl, hn, h₁⟩ := Lexeme.recased_name_cons.1 h
  obtain ⟨_, rfl, h₂⟩ := Lexeme.recased_token_cons.1 h₁
  obtain ⟨v, _, rfl, hv, ⟨⟩⟩ := Lexeme.recased_literal_cons.1 h₂
  exact ⟨⟨n, v⟩, rfl, hn, hv⟩

theorem carries_condition :
    Carries Condition.lexemes (Option.Rel (Condition.Recased SameLetters)) := by
  intro w ls h
  cases w with
  | none =>
    cases h
    exact ⟨none, rfl, .none⟩
  | some w =>
    obtain ⟨_, rfl, h₁⟩ := Lexeme.recased_token_cons.1 h
    obtain ⟨n, _, rfl, hn, h₂⟩ := Lexeme.recased_name_cons.1 h₁
    obtain ⟨_, rfl, h₃⟩ := Lexeme.recased_token_cons.1 h₂
    obtain ⟨v, _, rfl, hv, ⟨⟩⟩ := Lexeme.recased_literal_cons.1 h₃
    exact ⟨some ⟨n, v⟩, rfl, .some ⟨hn, hv⟩⟩

theorem carries_selection : Carries selectionLexemes (Option.Rel (List.Forall₂ SameLetters)) := by
  intro columns ls h
  cases columns with
  | none =>
    obtain ⟨_, rfl, ⟨⟩⟩ := Lexeme.recased_token_cons.1 h
    exact ⟨none, rfl, .none⟩
  | some names =>
    have hname : Carries (fun n => [.name n]) SameLetters := by
      intro n ls h
      obtain ⟨n', _, rfl, hn, ⟨⟩⟩ := Lexeme.recased_name_cons.1 h
      exact ⟨n', rfl, hn⟩
    obtain ⟨names', rfl, hn⟩ := hname.separated names ls h
    exact ⟨some names', rfl, .some hn⟩

theorem carries_values : Carries valueLexemes (List.Forall₂ (Literal.Recased SameLetters)) := by
  intro values ls h
  have hliteral : Carries (fun l => [.literal .listItem l]) (Literal.Recased SameLetters) := by
    intro l ls h
    obtain ⟨v, _, rfl, hv, ⟨⟩⟩ := Lexeme.recased_literal_cons.1 h
    exact ⟨v, rfl, hv⟩
  obtain ⟨ls₁, _, rfl, hls, hparen⟩ := forall₂_append_left_iff.1 h
  obtain ⟨values', rfl, hv⟩ := hliteral.separated values ls₁ hls
  obtain ⟨_, rfl, ⟨⟩⟩ := Lexeme.recased_token_cons.1 hparen
  exact ⟨values', rfl, hv⟩

namespace Statement

/-- The lexemes of a statement with letters in another case are those of a statement. -/
theorem exists_body_recased {s : Statement} {ls : List Lexeme}
    (h : List.Forall₂ Lexeme.Recased s.body ls) :
    ∃ s' : Statement, s'.command = s.command ∧ ls = s'.body ∧ s.Recased SameLetters s' := by
  cases s with
  | createDatabase n =>
    obtain ⟨_, rfl, h₁⟩ := Lexeme.recased_token_cons.1 h
    obtain ⟨n', _, rfl, hn, ⟨⟩⟩ := Lexeme.recased_name_cons.1 h₁
    exact ⟨.createDatabase n', rfl, rfl, .createDatabase hn⟩
  | dropDatabase n =>
    obtain ⟨_, rfl, h₁⟩ := Lexeme.recased_token_cons.1 h
    obtain ⟨n', _, rfl, hn, ⟨⟩⟩ := Lexeme.recased_name_cons.1 h₁
    exact ⟨.dropDatabase n', rfl, rfl, .dropDatabase hn⟩
  | useDatabase n =>
    obtain ⟨n', _, rfl, hn, ⟨⟩⟩ := Lexeme.recased_name_cons.1 h
    exact ⟨.useDatabase n', rfl, rfl, .useDatabase hn⟩
  | showDatabases =>
    obtain ⟨_, rfl, ⟨⟩⟩ := Lexeme.recased_token_cons.1 h
    exact ⟨.showDatabases, rfl, rfl, .showDatabases⟩
  | createTable n columns =>
    obtain ⟨_, rfl, h₁⟩ := Lexeme.recased_token_cons.1 h
    obtain ⟨n', _, rfl, hn, h₂⟩ := Lexeme.recased_name_cons.1 h₁
    obtain ⟨_, rfl, h₃⟩ := Lexeme.recased_token_cons.1 h₂
    obtain ⟨_, _, rfl, hcolumns, hparen⟩ := forall₂_append_left_iff.1 h₃
    obtain ⟨columns', rfl, hc⟩ := carries_columnSpec.separated _ _ hcolumns
    obtain ⟨_, rfl, ⟨⟩⟩ := Lexeme.recased_token_cons.1 hparen
    exact ⟨.createTable n' columns', rfl, rfl, .createTable hn hc⟩
  | dropTable n =>
    obtain ⟨_, rfl, h₁⟩ := Lexeme.recased_token_cons.1 h
    obtain ⟨n', _, rfl, hn, ⟨⟩⟩ := Lexeme.recased_name_cons.1 h₁
    exact ⟨.dropTable n', rfl, rfl, .dropTable hn⟩
  | showTables =>
    obtain ⟨_, rfl, ⟨⟩⟩ := Lexeme.recased_token_cons.1 h
    exact ⟨.showTables, rfl, rfl, .showTables⟩
  | insert n values =>
    obtain ⟨_, rfl, h₁⟩ := Lexeme.recased_token_cons.1 h
    obtain ⟨n', _, rfl, hn, h₂⟩ := Lexeme.recased_name_cons.1 h₁
    obtain ⟨_, rfl, h₃⟩ := Lexeme.recased_token_cons.1 h₂
    obtain ⟨_, rfl, h₄⟩ := Lexeme.recased_token_cons.1 h₃
    obtain ⟨values', rfl, hv⟩ := carries_values _ _ h₄
    exact ⟨.insert n' values', rfl, rfl, .insert hn hv⟩
  | select n columns condition =>
    rw [body, List.append_assoc] at h
    obtain ⟨_, _, rfl, hcolumns, h₁⟩ := forall₂_append_left_iff.1 h
    obtain ⟨columns', rfl, hc⟩ := carries_selection _ _ hcolumns
    obtain ⟨_, rfl, h₂⟩ := Lexeme.recased_token_cons.1 h₁
    obtain ⟨n', _, rfl, hn, h₃⟩ := Lexeme.recased_name_cons.1 h₂
    obtain ⟨condition', rfl, hw⟩ := carries_condition _ _ h₃
    refine ⟨.select n' columns' condition', rfl, ?_, .select hn hc hw⟩
    rw [body, List.append_assoc]
    rfl
  | update n assignments condition =>
    obtain ⟨n', _, rfl, hn, h₁⟩ := Lexeme.recased_name_cons.1 h
    obtain ⟨_, rfl, h₂⟩ := Lexeme.recased_token_cons.1 h₁
    obtain ⟨_, _, rfl, hassignments, h₃⟩ := forall₂_append_left_iff.1 h₂
    obtain ⟨assignments', rfl, ha⟩ := carries_assignment.separated _ _ hassignments
    obtain ⟨condition', rfl, hw⟩ := carries_condition _ _ h₃
    exact ⟨.update n' assignments' condition', rfl, rfl, .update hn ha hw⟩
  | delete n condition =>
    obtain ⟨_, rfl, h₁⟩ := Lexeme.recased_token_cons.1 h
    obtain ⟨n', _, rfl, hn, h₂⟩ := Lexeme.recased_name_cons.1 h₁
    obtain ⟨condition', rfl, hw⟩ := carries_condition _ _ h₂
    exact ⟨.delete n' condition', rfl, rfl, .delete hn hw⟩
  | help =>
    cases h
    exact ⟨.help, rfl, rfl, .help⟩

theorem exists_recased {s : Statement} {ls : List Lexeme}
    (h : List.Forall₂ Lexeme.Recased s.lexemes ls) :
    ∃ s' : Statement, ls = s'.lexemes ∧ s.Recased SameLetters s' := by
  obtain ⟨_, rfl, h₁⟩ := Lexeme.recased_token_cons.1 h
  obtain ⟨_, _, rfl, hbody, hend⟩ := forall₂_append_left_iff.1 h₁
  obtain ⟨s', hc, rfl, hs⟩ := exists_body_recased hbody
  obtain ⟨_, rfl, ⟨⟩⟩ := Lexeme.recased_token_cons.1 hend
  exact ⟨s', by rw [lexemes, hc], hs⟩

theorem Recased.hasItems {same : String → String → Prop} {s s' : Statement}
    (h : s.Recased same s') (hi : s.HasItems) : s'.HasItems := by
  have hne : ∀ {α : Type} {R : α → α → Prop} {xs ys : List α}, List.Forall₂ R xs ys → xs ≠ [] →
      ys ≠ [] := by
    rintro α R xs ys hxy hxs rfl
    exact hxs (List.forall₂_nil_right_iff.1 hxy)
  cases h with
  | createTable _ hc => exact hne hc hi
  | insert _ hv => exact hne hv hi
  | select _ hc _ =>
    cases hc with
    | none => trivial
    | some hc => exact hne hc hi
  | update _ ha _ => exact hne ha hi
  | _ => trivial

/-- A text in which letters change their case is a statement of the same form. -/
theorem parse_recased {text text' : String} (h : SameLetters text text') {s : Statement}
    (hp : parse text = .ok s) : ∃ s', parse text' = .ok s' ∧ s.Recased SameLetters s' := by
  obtain ⟨hi, rest, hl, hr⟩ := parse_eq_ok_iff.1 hp
  obtain ⟨ls, rest', hls, hl', hrest⟩ := hl.recased h
  obtain ⟨s', rfl, hs⟩ := exists_recased hls
  exact ⟨s', parse_eq_ok_iff.2 ⟨hs.hasItems hi, rest', hl',
    forall_mem_congr hrest isBlank_toLower hr⟩, hs⟩

/-- And a text that is no statement stays none. -/
theorem parse_cases {text text' : String} (h : SameLetters text text') :
    (∃ e e', parse text = .error e ∧ parse text' = .error e') ∨
      ∃ s s', parse text = .ok s ∧ parse text' = .ok s' ∧ s.Recased SameLetters s' := by
  cases hp : parse text with
  | ok s =>
    obtain ⟨s', hp', hs⟩ := parse_recased h hp
    exact .inr ⟨s, s', rfl, hp', hs⟩
  | error e =>
    cases hp' : parse text' with
    | error e' => exact .inl ⟨e, e', rfl, rfl⟩
    | ok s' =>
      obtain ⟨s, hs, -⟩ := parse_recased h.symm hp'
      rw [hp] at hs
      cases hs

end Statement

end TableStore.Sql

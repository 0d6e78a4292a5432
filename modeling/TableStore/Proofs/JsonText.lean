import Mathlib.Data.List.TakeWhile
import TableStore.Json.Read
import TableStore.Json.Write

/-!
# JSON read back

A tree that has a written form is read back from it: strings character by character, then tokens,
then the nesting.
-/
namespace TableStore.Json

/-! Strings -/

theorem hexDigits?_control : ∀ n, n < 0x20 →
    hexDigits? '0' '0' (hexDigit (n / 16)) (hexDigit (n % 16)) = some n := by
  decide

theorem readUnits_letter {c e : Char} (h : escaped? e = some c) (rest : List Char) :
    readUnits ('\\' :: e :: rest) = (readUnits rest).map fun r => (c.toNat :: r.1, r.2) := by
  have he : e ≠ 'u' := by
    rintro rfl
    cases h
  cases hr : readUnits rest <;> simp [readUnits, he, h, hr]

theorem readUnits_control {c : Char} (h : c.toNat < 0x20) (rest : List Char) :
    readUnits ('\\' :: 'u' :: '0' :: '0' :: hexDigit (c.toNat / 16) :: hexDigit (c.toNat % 16) ::
      rest) = (readUnits rest).map fun r => (c.toNat :: r.1, r.2) := by
  cases hr : readUnits rest <;> simp [readUnits, hexDigits?_control c.toNat h, hr]

theorem readUnits_plain {c : Char} (hq : c ≠ '"') (hb : c ≠ '\\') (h : ¬ c.toNat < 0x20)
    (rest : List Char) :
    readUnits (c :: rest) = (readUnits rest).map fun r => (c.toNat :: r.1, r.2) := by
  cases hr : readUnits rest <;> simp [readUnits, hb, h, hr]

theorem readUnits_escape (c : Char) (rest : List Char) :
    readUnits (escape c ++ rest) = (readUnits rest).map fun r => (c.toNat :: r.1, r.2) := by
  by_cases hq : c = '"'
  · exact hq ▸ readUnits_letter rfl rest
  by_cases hb : c = '\\'
  · exact hb ▸ readUnits_letter rfl rest
  by_cases h8 : c = '\x08'
  · exact h8 ▸ readUnits_letter rfl rest
  by_cases hC : c = '\x0C'
  · exact hC ▸ readUnits_letter rfl rest
  by_cases hn : c = '\n'
  · exact hn ▸ readUnits_letter rfl rest
  by_cases hr : c = '\r'
  · exact hr ▸ readUnits_letter rfl rest
  by_cases ht : c = '\t'
  · exact ht ▸ readUnits_letter rfl rest
  by_cases hc : c.toNat < 0x20
  · simpa [escape, hq, hb, h8, hC, hn, hr, ht, hc] using readUnits_control hc rest
  · simpa [escape, hq, hb, h8, hC, hn, hr, ht, hc] using readUnits_plain hq hb hc rest

theorem readUnits_flatMap_escape (cs rest : List Char) :
    readUnits (cs.flatMap escape ++ '"' :: rest) = some (cs.map Char.toNat, rest) := by
  induction cs with
  | nil => simp [readUnits]
  | cons c cs ih => simp [List.flatMap_cons, readUnits_escape, ih]

theorem not_isHigh_not_isLow (c : Char) : isHigh c.toNat = false ∧ isLow c.toNat = false := by
  have hv := c.valid
  simp only [UInt32.isValidChar, Nat.isValidChar] at hv
  simp only [isHigh, isLow, Bool.and_eq_false_iff, decide_eq_false_iff_not, Char.toNat]
  omega

theorem joinUnits_cons (c : Char) (units : List Nat) :
    joinUnits (c.toNat :: units) = (joinUnits units).map (c :: ·) := by
  obtain ⟨hh, hl⟩ := not_isHigh_not_isLow c
  cases units with
  | nil => simp [joinUnits, hh, hl]
  | cons unit units => simp [joinUnits, hh, hl]

theorem joinUnits_map_toNat (cs : List Char) : joinUnits (cs.map Char.toNat) = some cs := by
  induction cs with
  | nil => rfl
  | cons c cs ih => rw [List.map_cons, joinUnits_cons, ih, Option.map_some]

/-! Tokens -/

theorem tokens_eq (cs : List Char) :
    tokens cs = match cs.dropWhile isSpace with
      | [] => []
      | c :: rest => (firstToken c rest).1 ::
          if (firstToken c rest).1 = .bad then [] else tokens (firstToken c rest).2 := by
  rw [tokens]
  split <;> rename_i h <;> simp only [h]

theorem tokens_nil : tokens [] = [] := by
  rw [tokens_eq]
  rfl

theorem tokens_spaces {w : List Char} (h : ∀ c ∈ w, isSpace c = true) (cs : List Char) :
    tokens (w ++ cs) = tokens cs := by
  rw [tokens_eq, tokens_eq cs, List.dropWhile_append_of_pos h]

theorem tokens_of_firstToken {c : Char} {cs rest : List Char} {t : Token} (hs : isSpace c = false)
    (h : firstToken c cs = (t, rest)) (ht : t ≠ .bad) : tokens (c :: cs) = t :: tokens rest := by
  rw [tokens_eq, List.dropWhile_cons_of_neg (by simp [hs])]
  simp [h, ht]

theorem tokens_lineBreak (level : Nat) (cs : List Char) :
    tokens (lineBreak level ++ cs) = tokens cs := by
  apply tokens_spaces
  intro c hc
  rcases List.mem_cons.1 hc with rfl | hc
  · rfl
  · rw [List.eq_of_mem_replicate hc]
    rfl

theorem tokens_sign {c : Char} {t : Token} (h : ofSign? c = some t) (cs : List Char) :
    tokens (c :: cs) = t :: tokens cs := by
  unfold ofSign? at h
  split at h <;> cases h <;> exact tokens_of_firstToken rfl rfl (by simp)

theorem tokens_quote (s : String) (cs : List Char) :
    tokens (quote s ++ cs) = .string (some s) :: tokens cs := by
  have hf : firstToken '"' (s.toList.flatMap escape ++ '"' :: cs) = (.string (some s), cs) := by
    simp [firstToken, readUnits_flatMap_escape, joinUnits_map_toNat]
  rw [quote, List.cons_append, List.append_assoc]
  exact tokens_of_firstToken rfl hf (by simp)

theorem tokens_null (cs : List Char) : tokens ('n' :: 'u' :: 'l' :: 'l' :: cs) = .null :: tokens cs :=
  tokens_of_firstToken rfl rfl (by simp)

theorem tokens_true (cs : List Char) :
    tokens ('t' :: 'r' :: 'u' :: 'e' :: cs) = .boolean true :: tokens cs :=
  tokens_of_firstToken rfl rfl (by simp)

theorem tokens_false (cs : List Char) :
    tokens ('f' :: 'a' :: 'l' :: 's' :: 'e' :: cs) = .boolean false :: tokens cs :=
  tokens_of_firstToken rfl rfl (by simp)

theorem isNumeralChar_of_isDigit {c : Char} (h : c.isDigit = true) : isNumeralChar c = true := by
  simp [isNumeralChar, h]

theorem isNumeralChar_of_takeSign {cs : List Char}
    (h : ∀ c ∈ (Decimal.takeSign cs).2, c.isDigit = true) : ∀ c ∈ cs, isNumeralChar c = true := by
  unfold Decimal.takeSign at h
  split at h
  · exact List.forall_mem_cons.2 ⟨rfl, fun c hc => isNumeralChar_of_isDigit (h c hc)⟩
  · exact List.forall_mem_cons.2 ⟨rfl, fun c hc => isNumeralChar_of_isDigit (h c hc)⟩
  · exact fun c hc => isNumeralChar_of_isDigit (h c hc)

theorem isNumeralChar_of_readExponent {magnitude : List Char → Nat} {cs : List Char}
    (h : (Decimal.readExponent magnitude cs).isSome = true) :
    ∀ c ∈ cs, isNumeralChar c = true := by
  cases cs with
  | nil => simp
  | cons c cs =>
    by_cases hc : c = 'e' ∨ c = 'E'
    · have hd : ∀ c ∈ (Decimal.takeSign cs).2, c.isDigit = true := by
        by_contra hd
        simp [Decimal.readExponent, hc, hd] at h
      refine List.forall_mem_cons.2 ⟨?_, isNumeralChar_of_takeSign hd⟩
      rcases hc with rfl | rfl <;> rfl
    · simp [Decimal.readExponent, hc] at h

theorem isNumeralChar_of_isNumeralTail {cs : List Char} (h : isNumeralTail cs = true) :
    ∀ c ∈ cs, isNumeralChar c = true := by
  unfold isNumeralTail at h
  split at h
  · rename_i cs
    have he := isNumeralChar_of_readExponent (Bool.and_eq_true_iff.1 h).2
    rw [← List.takeWhile_append_dropWhile (p := Char.isDigit) (l := cs)]
    refine List.forall_mem_cons.2 ⟨rfl, List.forall_mem_append.2 ⟨fun c hc => ?_, he⟩⟩
    exact isNumeralChar_of_isDigit (List.mem_takeWhile_imp hc)
  · exact isNumeralChar_of_readExponent h

theorem isNumeralChar_of_isUnsignedNumeral {cs : List Char} (h : isUnsignedNumeral cs = true) :
    cs ≠ [] ∧ ∀ c ∈ cs, isNumeralChar c = true := by
  have hne : cs ≠ [] := by
    rintro rfl
    cases h
  refine ⟨hne, ?_⟩
  have ht := isNumeralChar_of_isNumeralTail (Bool.and_eq_true_iff.1 h).2
  rw [← List.takeWhile_append_dropWhile (p := Char.isDigit) (l := cs)]
  refine List.forall_mem_append.2 ⟨fun c hc => ?_, ht⟩
  exact isNumeralChar_of_isDigit (List.mem_takeWhile_imp hc)

theorem isNumeralChar_of_isNumeral {cs : List Char} (h : isNumeral cs = true) :
    cs ≠ [] ∧ ∀ c ∈ cs, isNumeralChar c = true := by
  unfold isNumeral at h
  split at h
  · exact ⟨by simp, List.forall_mem_cons.2 ⟨rfl, (isNumeralChar_of_isUnsignedNumeral h).2⟩⟩
  · exact isNumeralChar_of_isUnsignedNumeral h

theorem isSpace_of_isNumeralChar {c : Char} (h : isNumeralChar c = true) :
    isSpace c = false ∧ c ≠ '"' := by
  constructor
  · by_contra hs
    simp only [isSpace, Bool.not_eq_false, Bool.or_eq_true, beq_iff_eq] at hs
    obtain ((rfl | rfl) | rfl) | rfl := hs <;> cases h
  · rintro rfl
    cases h

/-- A text that can follow a number, since no number goes on with it. -/
def Ends (cs : List Char) : Prop := ∀ c ∈ cs.head?, isNumeralChar c = false

theorem tokens_number {numeral : String} (h : isNumeral numeral.toList = true) {cs : List Char}
    (hcs : Ends cs) : tokens (numeral.toList ++ cs) = .number numeral :: tokens cs := by
  obtain ⟨hne, hall⟩ := isNumeralChar_of_isNumeral h
  have ht : (numeral.toList ++ cs).takeWhile isNumeralChar = numeral.toList := by
    rw [List.takeWhile_append_of_pos hall]
    cases cs with
    | nil => simp
    | cons c cs => simp [hcs c rfl]
  have hd : (numeral.toList ++ cs).dropWhile isNumeralChar = cs := by
    rw [List.dropWhile_append_of_pos hall]
    cases cs with
    | nil => simp
    | cons c cs => simp [hcs c rfl]
  cases hn : numeral.toList with
  | nil => exact absurd hn hne
  | cons c ds =>
    have hc := hall c (by simp [hn])
    obtain ⟨hs, hq⟩ := isSpace_of_isNumeralChar hc
    rw [hn, List.cons_append, List.takeWhile_cons_of_pos hc] at ht
    rw [hn, List.cons_append, List.dropWhile_cons_of_pos hc] at hd
    have hf : firstToken c (ds ++ cs) = (.number numeral, cs) := by
      unfold firstToken
      rw [if_neg hq, if_pos hc, ht, hd, numberToken, ← hn, if_pos h, String.ofList_toList]
    exact tokens_of_firstToken hs hf (by simp)

theorem ends_cons {c : Char} (h : isNumeralChar c = false) (cs : List Char) : Ends (c :: cs) := by
  rintro d hd
  cases hd
  exact h

theorem ends_lineBreak (level : Nat) (cs : List Char) : Ends (lineBreak level ++ cs) :=
  ends_cons rfl _

/-! Nesting -/

mutual

/-- The tree has a written form: its numbers are numerals, its strings and keys texts, and nothing
in it is broken. -/
def isWritable : Json → Bool
  | number numeral => isNumeral numeral.toList
  | string s => s.isSome
  | array items => itemsWritable items
  | object members => membersWritable members
  | broken => false
  | _ => true

def itemsWritable : List Json → Bool
  | [] => true
  | j :: js => j.isWritable && itemsWritable js

def membersWritable : List (JsonText × Json) → Bool
  | [] => true
  | (k, j) :: ms => k.isSome && j.isWritable && membersWritable ms

end

theorem tokens_quoteText {k : JsonText} (h : k.isSome = true) (cs : List Char) :
    tokens (quoteText k ++ cs) = .string k :: tokens cs := by
  obtain ⟨s, rfl⟩ := Option.isSome_iff_exists.1 h
  exact tokens_quote s cs

theorem head_tokens_write {j : Json} (h : j.isWritable = true) (level : Nat) {rest : List Char}
    (hr : Ends rest) : (tokens (j.write level ++ rest)).head? ≠ some .closeBracket := by
  match j with
  | .null => simp [write, tokens_null]
  | .boolean true => simp [write, tokens_true]
  | .boolean false => simp [write, tokens_false]
  | .number numeral =>
    rw [write, tokens_number h hr]
    simp
  | .string s =>
    rw [write, tokens_quoteText h]
    simp
  | .array [] => simp [write, tokens_sign (c := '[') rfl]
  | .array (j :: js) => simp [write, tokens_sign (c := '[') rfl]
  | .object [] => simp [write, tokens_sign (c := '\x7b') rfl]
  | .object ((k, j) :: ms) => simp [write, tokens_sign (c := '\x7b') rfl]

theorem readValue_openBracket (frames : List Frame) {ts : List Token}
    (h : ts.head? ≠ some .closeBracket) :
    readValue frames (.openBracket :: ts) = readValue (.items [] :: frames) ts := by
  rw [readValue]
  rintro ts' rfl
  exact h rfl

theorem ends_writeItems (level outer : Nat) (js : List Json) (cs : List Char) :
    Ends (writeItems level js ++ (lineBreak outer ++ cs)) := by
  cases js with
  | nil => exact ends_lineBreak outer cs
  | cons j js => exact ends_cons rfl _

theorem ends_writeMembers (level outer : Nat) (ms : List (JsonText × Json)) (cs : List Char) :
    Ends (writeMembers level ms ++ (lineBreak outer ++ cs)) := by
  match ms with
  | [] => exact ends_lineBreak outer cs
  | (k, j) :: ms => exact ends_cons rfl _

theorem write_array_append (level : Nat) (j : Json) (js : List Json) (rest : List Char) :
    (array (j :: js)).write level ++ rest = '[' :: (lineBreak (level + 1) ++ (j.write (level + 1) ++
      (writeItems (level + 1) js ++ (lineBreak level ++ ']' :: rest)))) := by
  simp [write]

theorem write_object_append (level : Nat) (k : JsonText) (j : Json) (ms : List (JsonText × Json))
    (rest : List Char) :
    (object ((k, j) :: ms)).write level ++ rest = '\x7b' :: (lineBreak (level + 1) ++ (quoteText k ++
      (':' :: ' ' :: (j.write (level + 1) ++ (writeMembers (level + 1) ms ++
        (lineBreak level ++ '\x7d' :: rest)))))) := by
  simp [write]

theorem writeItems_cons_append (level : Nat) (j : Json) (js : List Json) (rest : List Char) :
    writeItems level (j :: js) ++ rest =
      ',' :: (lineBreak level ++ (j.write level ++ (writeItems level js ++ rest))) := by
  simp [writeItems]

theorem writeMembers_cons_append (level : Nat) (k : JsonText) (j : Json)
    (ms : List (JsonText × Json)) (rest : List Char) :
    writeMembers level ((k, j) :: ms) ++ rest = ',' :: (lineBreak level ++ (quoteText k ++
      (':' :: ' ' :: (j.write level ++ (writeMembers level ms ++ rest))))) := by
  simp [writeMembers]

theorem tokens_colon (cs : List Char) : tokens (':' :: ' ' :: cs) = .colon :: tokens cs := by
  rw [tokens_sign rfl]
  exact congrArg _ (tokens_spaces (w := [' ']) (by simp [isSpace]) cs)

theorem itemsWritable_cons {j : Json} {js : List Json} :
    itemsWritable (j :: js) = true ↔ j.isWritable = true ∧ itemsWritable js = true := by
  rw [itemsWritable, Bool.and_eq_true]

theorem membersWritable_cons {k : JsonText} {j : Json} {ms : List (JsonText × Json)} :
    membersWritable ((k, j) :: ms) = true ↔
      k.isSome = true ∧ j.isWritable = true ∧ membersWritable ms = true := by
  rw [membersWritable, Bool.and_eq_true, Bool.and_eq_true, and_assoc]

mutual

/-- A tree is read as itself from its written form, wherever that stands. -/
theorem readValue_write {j : Json} (h : j.isWritable = true) (frames : List Frame) (level : Nat)
    {rest : List Char} (hr : Ends rest) :
    readValue frames (tokens (j.write level ++ rest)) = readOn frames j (tokens rest) := by
  match j with
  | .null => simp [write, tokens_null, readValue]
  | .boolean true => simp [write, tokens_true, readValue]
  | .boolean false => simp [write, tokens_false, readValue]
  | .number numeral => rw [write, tokens_number h hr, readValue]
  | .string s => rw [write, tokens_quoteText h, readValue]
  | .array [] => simp [write, tokens_sign (c := '[') rfl, tokens_sign (c := ']') rfl, readValue]
  | .array (j :: js) =>
    obtain ⟨hj, hjs⟩ := itemsWritable_cons.1 h
    have he := ends_writeItems (level + 1) level js (']' :: rest)
    rw [write_array_append, tokens_sign rfl, tokens_lineBreak,
      readValue_openBracket frames (head_tokens_write hj (level + 1) he),
      readValue_write hj _ (level + 1) he, readOn_writeItems hjs]
    rfl
  | .object [] =>
    simp [write, tokens_sign (c := '\x7b') rfl, tokens_sign (c := '\x7d') rfl, readValue]
  | .object ((k, j) :: ms) =>
    obtain ⟨hk, hj, hms⟩ := membersWritable_cons.1 h
    have he := ends_writeMembers (level + 1) level ms ('\x7d' :: rest)
    rw [write_object_append, tokens_sign rfl, tokens_lineBreak, tokens_quoteText hk, tokens_colon,
      readValue, readValue_write hj _ (level + 1) he, readOn_writeMembers hms]
    rfl

theorem readOn_writeItems {js : List Json} (h : itemsWritable js = true) (outer : List Frame)
    (done : List Json) (j : Json) (inner level : Nat) (rest : List Char) :
    readOn (.items done :: outer) j
        (tokens (writeItems inner js ++ (lineBreak level ++ ']' :: rest))) =
      readOn outer (.array (done.reverse ++ j :: js)) (tokens rest) := by
  match js with
  | [] =>
    rw [writeItems, List.nil_append, tokens_lineBreak, tokens_sign rfl, readOn]
    simp
  | j' :: js =>
    obtain ⟨hj, hjs⟩ := itemsWritable_cons.1 h
    have he := ends_writeItems inner level js (']' :: rest)
    rw [writeItems_cons_append, tokens_sign rfl, tokens_lineBreak, readOn,
      readValue_write hj _ inner he, readOn_writeItems hjs]
    simp

theorem readOn_writeMembers {ms : List (JsonText × Json)} (h : membersWritable ms = true)
    (outer : List Frame) (done : List (JsonText × Json)) (k : JsonText) (j : Json)
    (inner level : Nat) (rest : List Char) :
    readOn (.members done k :: outer) j
        (tokens (writeMembers inner ms ++ (lineBreak level ++ '\x7d' :: rest))) =
      readOn outer (.object (done.reverse ++ (k, j) :: ms)) (tokens rest) := by
  match ms with
  | [] =>
    rw [writeMembers, List.nil_append, tokens_lineBreak, tokens_sign rfl, readOn]
    simp
  | (k', j') :: ms =>
    obtain ⟨hk, hj, hms⟩ := membersWritable_cons.1 h
    have he := ends_writeMembers inner level ms ('\x7d' :: rest)
    rw [writeMembers_cons_append, tokens_sign rfl, tokens_lineBreak, tokens_quoteText hk,
      tokens_colon, readOn, readValue_write hj _ inner he, readOn_writeMembers hms]
    simp

end

theorem read_pretty {j : Json} (h : j.isWritable = true) : read j.pretty = (j, false) := by
  have hv : readValue [] (tokens (j.write 0 ++ [])) = readOn [] j (tokens []) :=
    readValue_write h [] 0 fun _ hc => by cases hc
  rw [List.append_nil, tokens_nil, readOn] at hv
  rw [read, pretty, String.toList_ofList, hv]
  rfl

end TableStore.Json

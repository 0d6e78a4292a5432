import TableStore.Proofs.Conversion
import TableStore.Proofs.FloatText
import TableStore.Proofs.LetterCase

/-!
# Values and their texts

A type makes the same of a value as of the text that is shown for it, with the same message where it
makes nothing. Only integers are not read from the text of a number, which always has a point or an
exponent.
-/
namespace TableStore

/-! Integers as numbers -/

namespace Numeral

open Decimal NumberLayout

/-- The digits of an integer are read as the number nearest to it. -/
theorem readFloat_integerText (i : Int64) :
    readFloat (Value.integerText i) = .ok (.ofInt i.toInt) := by
  have hd : ∀ c ∈ Nat.toDigits 10 i.toInt.natAbs, c.isDigit = true := fun c => isDigit_of_mem_toDigits
  have hs : takeSign (Value.integerText i).toList =
      (decide (i.toInt < 0), Nat.toDigits 10 i.toInt.natAbs) := by
    rw [Value.integerText, String.toList_ofList]
    by_cases hi : i.toInt < 0
    · simp [hi, takeSign]
    · simpa [hi] using takeSign_toDigits i.toInt.natAbs
  have hr := readUnsigned_whole exponentOfDigits (decide (i.toInt < 0)) (t := []) hd
    Nat.toDigits_ne_nil (by simp)
  rw [List.append_nil, natOfDigits_toDigits] at hr
  rw [readFloat_eq_ok hs hr, Except.ok.injEq]
  calc toBinary64 ⟨decide (i.toInt < 0), i.toInt.natAbs, .ofNat 0⟩
      = .ofRatio (decide (i.toInt < 0)) (i.toInt.natAbs * 10 ^ 0) 1 := toBinary64_ofNat _ _ 0
    _ = .ofInt i.toInt := by rw [Nat.pow_zero, Nat.mul_one, Binary64.ofInt]

/-! Numbers are not read as integers -/

theorem isDigit_of_appendDigits {negative : Bool} {n : Nat} {ds : List Char} {i : Int64}
    (h : appendDigits negative n ds = .ok i) : ∀ c ∈ ds, c.isDigit = true := by
  induction ds generalizing n with
  | nil => simp
  | cons c cs ih =>
    rw [appendDigits] at h
    split at h
    · cases h
    · rename_i hc
      refine List.forall_mem_cons.2 ⟨by simpa using hc, ?_⟩
      split at h <;> split at h <;> first | cases h | exact ih h

theorem isDigit_of_readInteger {s : String} {i : Int64} (h : readInteger s = .ok i) :
    ∀ c ∈ (takeSign s.toList).2, c.isDigit = true := by
  unfold readInteger at h
  split at h
  · cases h
  · split at h
    · cases h
    · rename_i hs
      rw [hs]
      exact isDigit_of_appendDigits h

/-- A point or an exponent mark is in every text of a number. -/
theorem exists_not_isDigit_layOut (l : NumberLayout) (ds : List Char) (p : Int) :
    ∃ c ∈ l.layOut ds p, c.isDigit = false := by
  unfold layOut
  split
  · refine ⟨'.', ?_, rfl⟩
    cases p with
    | negSucc k => simp [plain]
    | ofNat k =>
      rw [plain]
      split <;> simp
  · exact ⟨'e', by simp [withExponent], rfl⟩

theorem exists_not_isDigit_writeUnsigned (l : NumberLayout) {x : Binary64}
    (h : x.isFinite = true) : ∃ c ∈ l.writeUnsigned x, c.isDigit = false := by
  by_cases hx : x.scaled = 0
  · rw [writeUnsigned, if_pos hx]
    exact ⟨'.', by simp, rfl⟩
  · obtain ⟨ds, p, hw, -⟩ := writeUnsigned_eq l h hx
    rw [hw]
    exact exists_not_isDigit_layOut l ds p

theorem readInteger_floatText {x : Binary64} (h : x.isFinite = true) (i : Int64) :
    readInteger (Value.floatText x) ≠ .ok i := by
  intro hi
  obtain ⟨c, hc, hd⟩ := exists_not_isDigit_writeUnsigned Value.numberLayout h
  rw [Value.floatText_of_isFinite h] at hi
  have hall := isDigit_of_readInteger hi
  rw [takeSign_write _ (.inl rfl) h] at hall
  rw [hall c hc] at hd
  cases hd

end Numeral

/-! Numerals are not read as truth values -/

namespace Text

/-- The characters that a numeral can start with have no case. -/
theorem lowerChar_of_isDigit {c : Char} (h : c.isDigit = true ∨ c = '-') : lowerChar c = [c] := by
  rcases h with h | rfl
  · rw [NumberLayout.isDigit_iff] at h
    have ha : isAscii c = true := decide_eq_true (by omega)
    have hl : c.toLower = c := Char.toNat_inj.1 (by rw [toNat_toLower, if_neg (by omega)])
    rw [lowerChar, if_pos ha, hl]
  · rfl

theorem head_of_isNumeral {cs : List Char} (h : Json.isNumeral cs = true) :
    ∃ c rest, cs = c :: rest ∧ (c.isDigit = true ∨ c = '-') := by
  unfold Json.isNumeral at h
  split at h
  · exact ⟨'-', _, rfl, .inr rfl⟩
  · have hd := NumberLayout.isDigit_head_of_isUnsignedNumeral h
    cases cs with
    | nil => cases h
    | cons c rest => exact ⟨c, rest, rfl, .inl (hd c rfl)⟩

theorem lower_of_isNumeral {s : String} (h : Json.isNumeral s.toList = true) :
    ∃ c cs, (lower s).toList = c :: cs ∧ (c.isDigit = true ∨ c = '-') := by
  obtain ⟨c, rest, hs, hc⟩ := head_of_isNumeral h
  have hsigma : c ≠ 'Σ' := by
    rintro rfl
    exact absurd hc (by decide)
  refine ⟨c, lowerAfter [c] rest, ?_, hc⟩
  rw [lower, String.toList_ofList, hs, lowerAfter, if_neg hsigma, lowerChar_of_isDigit hc]
  rfl

end Text

namespace DataType

theorem booleanOfText?_of_isNumeral {s : String} (h : Json.isNumeral s.toList = true) :
    booleanOfText? s = none := by
  obtain ⟨c, cs, hl, hc⟩ := Text.lower_of_isNumeral h
  have hne : ∀ (d : Char) (ds : List Char), d.isDigit = false → d ≠ '-' →
      Text.lower s ≠ String.ofList (d :: ds) := by
    rintro d ds hd hm he
    rw [he, String.toList_ofList, List.cons.injEq] at hl
    rw [← hl.1, hd] at hc
    simp [hm] at hc
  have ht : Text.lower s ≠ "true" := hne 't' ['r', 'u', 'e'] rfl (by decide)
  have hf : Text.lower s ≠ "false" := hne 'f' ['a', 'l', 's', 'e'] rfl (by decide)
  simp [booleanOfText?, ht, hf]

/-! Values and their texts -/

/-- The text of a value is converted to what the value is converted to, unless it is that of a
number for an integer. -/
theorem convert?_text {t : DataType} {v : Value} (hn : v ≠ .null) (hf : v.isFinite = true)
    (h : ¬(t = .integer ∧ v.type? = some .double)) :
    t.convert? (.string v.text) = t.convert? v := by
  cases v with
  | null => exact absurd rfl hn
  | boolean b => cases t <;> cases b <;> decide
  | integer i =>
    cases t with
    | integer =>
      change (Numeral.readInteger (Value.integerText i)).toOption.map Value.integer = _
      rw [Numeral.readInteger_integerText]
      rfl
    | double =>
      change ((Numeral.readFloat (Value.integerText i)).toOption.filter _).map Value.float = _
      rw [Numeral.readFloat_integerText]
      simp [Except.toOption, Binary64.isFinite_ofInt, convert?]
    | string => rfl
    | boolean =>
      change (booleanOfText? (Value.integerText i)).map Value.boolean = _
      rw [booleanOfText?_of_isNumeral (Numeral.isNumeral_integerText i)]
      rfl
  | float x =>
    have hx : x.isFinite = true := hf
    cases t with
    | integer => exact absurd ⟨rfl, rfl⟩ h
    | double =>
      change ((Numeral.readFloat (Value.floatText x)).toOption.filter _).map Value.float = _
      rw [Numeral.readFloat_floatText hx]
      simp [Except.toOption, hx, convert?]
    | string => rfl
    | boolean =>
      change (booleanOfText? (Value.floatText x)).map Value.boolean = _
      rw [Value.floatText_of_isFinite hx,
        booleanOfText?_of_isNumeral (NumberLayout.isNumeral_write _ (.inl rfl) hx)]
      rfl
  | string s => rfl

/-- Values with the same text that are converted to the same are refused with the same message. -/
theorem mapError_text_convert {t : DataType} {v v' : Value} (ht : v.text = v'.text)
    (h : t.convert? v = t.convert? v') :
    (t.convert v).mapError Error.text = (t.convert v').mapError Error.text := by
  unfold convert
  rw [h]
  cases t.convert? v' with
  | some w => rfl
  | none =>
    refine congrArg Except.error ?_
    unfold Error.text ConversionError.message
    simp only [ht]

/-- An integer of a document and the same digits in a statement are the same number. -/
theorem convert_double_digits (reader : NumeralReader) (i : Int64) :
    (Document.readValue reader (.number (Value.integerText i)) >>= convert .double) =
        .ok (.float (.ofInt i.toInt)) ∧
      convert .double (.string (Value.integerText i)) = .ok (.float (.ofInt i.toInt)) := by
  constructor
  · rw [Document.readValue, Value.ofNumeral?_integerText]
    rfl
  · exact convert_eq_ok_iff.2
      (convert?_text (v := .integer i) Value.noConfusion rfl fun h => by cases h.2)

/-- A value and the text that is shown for it are converted alike, to the same value or with the same
message. Only the text of a number is never converted to an integer. So an integer of a document
and the same digits in a statement become the same number. -/
theorem convert_text_alike (t : DataType) (v : Value) (hn : v ≠ .null) (hf : v.isFinite = true) :
    (¬(t = .integer ∧ v.type? = some .double) →
      (t.convert v).mapError Error.text = (t.convert (.string v.text)).mapError Error.text) ∧
    (t = .integer ∧ v.type? = some .double →
      t.convert (.string v.text) = .error (.ofConversion (.unreadable (.string v.text) t none))) ∧
    ∀ (reader : NumeralReader) (i : Int64), ∃ x : Binary64,
      (Document.readValue reader (.number (Value.integerText i)) >>= convert .double) =
          .ok (.float x) ∧
        convert .double (.string (Value.integerText i)) = .ok (.float x) := by
  refine ⟨fun h => mapError_text_convert rfl (convert?_text hn hf h).symm, ?_,
    fun reader i => ⟨_, convert_double_digits reader i⟩⟩
  rintro ⟨rfl, hv⟩
  cases v with
  | float x =>
    rw [convert_eq_error_iff]
    refine ⟨Option.map_eq_none_iff.2 (Option.eq_none_iff_forall_ne_some.2 fun i hi => ?_), rfl⟩
    exact Numeral.readInteger_floatText hf i (toOption_eq_some_iff.1 hi)
  | _ => cases hv

/-- A half is read from its text, and not as an integer, although it can be cut to one. -/
theorem convert_text_alike_half :
    (Value.float ⟨0x3FE0000000000000⟩).text = "0.5" ∧
      (convert .double (.string "0.5")).mapError Error.text =
        .ok (.float ⟨0x3FE0000000000000⟩) ∧
      convert .integer (.string "0.5") =
        .error (.ofConversion (.unreadable (.string "0.5") .integer none)) := by
  have ht : (Value.float ⟨0x3FE0000000000000⟩).text = "0.5" := by decide +kernel
  obtain ⟨halike, -⟩ :=
    convert_text_alike .double (.float ⟨0x3FE0000000000000⟩) Value.noConfusion (by decide)
  obtain ⟨-, hrefused, -⟩ :=
    convert_text_alike .integer (.float ⟨0x3FE0000000000000⟩) Value.noConfusion (by decide)
  rw [ht] at halike hrefused
  exact ⟨ht, (halike fun h => by cases h.1).symm, hrefused ⟨rfl, rfl⟩⟩

end DataType

end TableStore

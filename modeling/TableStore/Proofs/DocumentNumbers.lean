import TableStore.Document
import TableStore.Proofs.DataModel
import TableStore.Proofs.Numeral

/-!
# Numbers in documents

Which value a numeral of a document stands for, and what becomes of a number that is written and
read again. An integer comes back as it was; a finite number comes back as what the reader makes of
its text.
-/
namespace TableStore

/-! Digits -/

namespace NumberLayout

open Decimal Json

theorem digitChar_of_isDigit {c : Char} (h : c.isDigit = true) :
    (c.toNat - '0'.toNat).digitChar = c ∧ c.toNat - '0'.toNat < 10 := by
  rw [Char.isDigit, Bool.and_eq_true, decide_eq_true_iff, decide_eq_true_iff] at h
  have hlo : 48 ≤ c.toNat := h.1
  have hhi : c.toNat ≤ 57 := h.2
  have hlt : c.toNat - '0'.toNat < 10 := by
    show c.toNat - 48 < 10
    omega
  refine ⟨Char.toNat_inj.1 ?_, hlt⟩
  rw [Nat.toNat_digitChar_of_lt_ten hlt]
  show 48 + (c.toNat - 48) = c.toNat
  omega

/-- Digits after those of a number are those of the number that all of them make. -/
theorem toDigits_append {ds : List Char} (hd : ∀ c ∈ ds, c.isDigit = true) {n : Nat} (hn : 0 < n) :
    Nat.toDigits 10 n ++ ds = Nat.toDigits 10 (Nat.ofDigitChars 10 ds n) := by
  induction ds generalizing n with
  | nil => rw [List.append_nil, Nat.ofDigitChars_nil]
  | cons c cs ih =>
    obtain ⟨hc, hcs⟩ := List.forall_mem_cons.1 hd
    obtain ⟨hchar, hlt⟩ := digitChar_of_isDigit hc
    have hone := Nat.toDigits_append_toDigits (b := 10) (by decide) hn hlt
    rw [Nat.toDigits_of_lt_base hlt, hchar] at hone
    rw [Nat.ofDigitChars_cons, ← ih hcs (by omega), ← hone, List.append_assoc,
      List.singleton_append]

theorem toDigits_natOfDigits {ds : List Char} (hd : ∀ c ∈ ds, c.isDigit = true)
    (hw : isWholePart ds = true) : Nat.toDigits 10 (natOfDigits ds) = ds := by
  cases ds with
  | nil => cases hw
  | cons c cs =>
    obtain ⟨hc, hcs⟩ := List.forall_mem_cons.1 hd
    obtain ⟨hchar, hlt⟩ := digitChar_of_isDigit hc
    rw [natOfDigits, Nat.ofDigitChars_cons, Nat.mul_zero, Nat.zero_add]
    by_cases hz : c.toNat - '0'.toNat = 0
    · rw [hz] at hchar
      subst hchar
      cases cs with
      | nil => rfl
      | cons d ds => cases hw
    · rw [← toDigits_append hcs (Nat.pos_of_ne_zero hz), Nat.toDigits_of_lt_base hlt, hchar,
        List.singleton_append]

/-- An unsigned numeral without point and exponent is its digits. -/
theorem isDigit_of_isUnsignedNumeral {cs : List Char} (h : isUnsignedNumeral cs = true)
    (hc : ∀ c ∈ cs, (c.isDigit || c == '-') = true) :
    (∀ c ∈ cs, c.isDigit = true) ∧ isWholePart cs = true := by
  rw [isUnsignedNumeral, Bool.and_eq_true] at h
  obtain ⟨hw, ht⟩ := h
  have hrest : cs.dropWhile Char.isDigit = [] := by
    cases he : cs.dropWhile Char.isDigit with
    | nil => rfl
    | cons c rest =>
      have hm : c ∈ cs := (List.dropWhile_sublist _).subset (he ▸ List.mem_cons_self)
      have hn : c.isDigit = false := by
        have := List.head?_dropWhile_not Char.isDigit cs
        rw [he] at this
        simpa using this
      have hminus : c = '-' := by simpa [hn] using hc c hm
      rw [he, hminus] at ht
      cases ht
  have hd := List.takeWhile_append_dropWhile (p := Char.isDigit) (l := cs)
  rw [hrest, List.append_nil] at hd
  rw [hd] at hw
  refine ⟨fun c hm => ?_, hw⟩
  rw [← hd] at hm
  exact List.mem_takeWhile_imp hm

end NumberLayout

/-! Integers -/

namespace Numeral

open Decimal Json NumberLayout

/-- Digits that are taken denote what they are taken for. -/
theorem toInt_of_appendDigits {negative : Bool} {ds : List Char} {n : Nat} {i : Int64}
    (hn : n < 2 ^ 63 + if negative then 1 else 0) (h : appendDigits negative n ds = .ok i) :
    i.toInt = if negative then -Int.ofNat (Nat.ofDigitChars 10 ds n)
      else Int.ofNat (Nat.ofDigitChars 10 ds n) := by
  induction ds generalizing n with
  | nil =>
    cases h
    rw [Nat.ofDigitChars_nil]
    simp only [Int.ofNat_eq_natCast]
    cases negative with
    | true =>
      rw [if_pos rfl] at hn ⊢
      exact Int64.toInt_ofInt_of_le (by omega) (by omega)
    | false =>
      rw [if_neg Bool.false_ne_true] at hn ⊢
      exact Int64.toInt_ofInt_of_le (by omega) (by omega)
  | cons c cs ih =>
    rw [appendDigits] at h
    rw [Nat.ofDigitChars_cons]
    split at h
    · cases h
    · cases negative with
      | true =>
        rw [if_pos rfl] at h
        split at h
        · cases h
        · exact ih (by rw [if_pos rfl]; omega) h
      | false =>
        rw [if_neg Bool.false_ne_true] at h
        split at h
        · cases h
        · exact ih (by rw [if_neg Bool.false_ne_true]; omega) h

/-- Only its own text is a numeral that is read as an integer. -/
theorem eq_integerText_of_readInteger {numeral : String} (hj : isNumeral numeral.toList = true)
    (hc : ∀ c ∈ numeral.toList, (c.isDigit || c == '-') = true) (hz : numeral ≠ "-0") {i : Int64}
    (h : readInteger numeral = .ok i) : numeral = Value.integerText i := by
  obtain ⟨cs, rfl⟩ : ∃ cs, numeral = String.ofList cs := ⟨_, (String.ofList_toList).symm⟩
  rw [String.toList_ofList] at hj hc
  unfold isNumeral at hj
  split at hj
  · rename_i ds
    obtain ⟨hd, hw⟩ := isDigit_of_isUnsignedNumeral hj (List.forall_mem_cons.1 hc).2
    have hne : ds ≠ [] := by
      rintro rfl
      cases hw
    rw [readInteger_minus hne] at h
    have hi := toInt_of_appendDigits (by simp) h
    rw [if_pos rfl] at hi
    have hpos : natOfDigits ds ≠ 0 := by
      intro h0
      have ht := toDigits_natOfDigits hd hw
      rw [h0] at ht
      exact hz (by rw [← ht]; rfl)
    have hlt : i.toInt < 0 := by
      rw [hi]
      have : 0 < natOfDigits ds := Nat.pos_of_ne_zero hpos
      rw [natOfDigits] at this
      simp only [Int.ofNat_eq_natCast]
      omega
    rw [Value.integerText, if_pos hlt, hi, Int.natAbs_neg]
    exact congrArg (fun ds => String.ofList ('-' :: ds)) (toDigits_natOfDigits hd hw).symm
  · obtain ⟨hd, hw⟩ := isDigit_of_isUnsignedNumeral hj hc
    have hne : cs ≠ [] := by
      rintro rfl
      cases hw
    rw [readInteger_of_isDigit (fun c hm => hd c (List.mem_of_mem_head? hm)) hne] at h
    have hi := toInt_of_appendDigits (by simp) h
    rw [if_neg Bool.false_ne_true] at hi
    have hlt : ¬ i.toInt < 0 := by
      rw [hi]
      exact not_lt.2 (Int.natCast_nonneg _)
    rw [Value.integerText, if_neg hlt, hi]
    exact congrArg String.ofList (toDigits_natOfDigits hd hw).symm

end Numeral

/-! Written numbers -/

namespace NumberLayout

/-- A number that is no integer shows it by its point or its exponent. -/
theorem exists_mark_writeUnsigned (l : NumberLayout) {x : Binary64} (h : x.isFinite = true) :
    '.' ∈ l.writeUnsigned x ∨ 'e' ∈ l.writeUnsigned x := by
  by_cases hx : x.scaled = 0
  · left
    rw [writeUnsigned, if_pos hx]
    simp
  · obtain ⟨ds, p, hw, -, -⟩ := writeUnsigned_eq l h hx
    rw [hw, layOut]
    split
    · left
      unfold plain
      split
      · simp
      · split <;> simp
    · right
      simp [withExponent]

theorem exists_mark_write (l : NumberLayout) {x : Binary64} (h : x.isFinite = true) :
    '.' ∈ (l.write x).toList ∨ 'e' ∈ (l.write x).toList := by
  rw [write, String.toList_ofList]
  have hm := exists_mark_writeUnsigned l h
  split
  · exact hm.imp (List.mem_cons_of_mem _) (List.mem_cons_of_mem _)
  · exact hm

end NumberLayout

namespace NumeralReader

/-- What a numeral of a document stands for: the integer whose text it is, or otherwise the number
that it is read as, which has to be finite. -/
inductive Denotes (reader : NumeralReader) : String → Value → Prop where
  | integer (i : Int64) : Denotes reader (Value.integerText i) (.integer i)
  | float {numeral : String} {x : Binary64} (hn : ∀ i, numeral ≠ Value.integerText i)
      (hr : reader.read? numeral = some x) (hx : x.isFinite = true) :
      Denotes reader numeral (.float x)

/-- Every finite number is read from its text as that number. -/
def ReadsBack (reader : NumeralReader) : Prop :=
  ∀ x : Binary64, x.isFinite = true → reader.read? (Value.documentLayout.write x) = some x

theorem exact_readsBack : exact.ReadsBack := by
  intro x h
  obtain ⟨d, hr, hd⟩ := NumberLayout.read_write Value.documentLayout (.inr rfl) h
  show (Decimal.read (Value.documentLayout.write x).toList).map Decimal.toBinary64 = some x
  rw [hr, Option.map_some, hd]

end NumeralReader

namespace Value

variable {reader : NumeralReader} {numeral : String} {v w : Value} {x : Binary64}

theorem integerText_ne (i : Int64) : integerText i ≠ "-0" := by
  intro h
  have hr := Numeral.readInteger_integerText i
  rw [h] at hr
  have hi : i = 0 := (Except.ok.inj hr).symm
  rw [hi] at h
  exact absurd h (by decide)

theorem all_integerText (i : Int64) :
    ((integerText i).toList.all fun c => c.isDigit || c == '-') = true := by
  have hd : ∀ c ∈ Nat.toDigits 10 i.toInt.natAbs, (c.isDigit || c == '-') = true := by
    intro c hc
    rw [NumberLayout.isDigit_of_mem_toDigits hc, Bool.true_or]
  rw [integerText, String.toList_ofList, List.all_eq_true]
  split
  · exact List.forall_mem_cons.2 ⟨rfl, hd⟩
  · exact hd

theorem ofNumeral?_integerText (i : Int64) :
    ofNumeral? reader (integerText i) = some (.integer i) := by
  have hne : (integerText i != "-0") = true := bne_iff_ne.2 (integerText_ne i)
  rw [ofNumeral?]
  simp only [hne, all_integerText, Bool.and_self, if_true, Numeral.readInteger_integerText]

/-- A numeral that is the text of no integer is left to the reader. -/
theorem ofNumeral?_of_ne (hj : Json.isNumeral numeral.toList = true)
    (hn : ∀ i, numeral ≠ integerText i) :
    ofNumeral? reader numeral = ofNumeral?.float? reader numeral := by
  unfold ofNumeral?
  split
  · rename_i h
    rw [Bool.and_eq_true, bne_iff_ne, List.all_eq_true] at h
    split
    · rename_i i hi
      exact absurd (Numeral.eq_integerText_of_readInteger hj h.2 h.1 hi) (hn i)
    · rfl
  · rfl

theorem float?_eq_some_iff : ofNumeral?.float? reader numeral = some v ↔
    ∃ x, reader.read? numeral = some x ∧ x.isFinite = true ∧ v = .float x := by
  rw [ofNumeral?.float?, Option.map_eq_some_iff]
  refine exists_congr fun x => ?_
  rw [Option.filter_eq_some_iff, and_assoc, eq_comm (a := v)]

/-- The numerals of documents are read as the values they stand for. -/
theorem ofNumeral?_eq_some_iff (hj : Json.isNumeral numeral.toList = true) :
    ofNumeral? reader numeral = some v ↔ reader.Denotes numeral v := by
  by_cases hi : ∃ i, numeral = integerText i
  · obtain ⟨i, rfl⟩ := hi
    rw [ofNumeral?_integerText, Option.some.injEq]
    constructor
    · rintro rfl
      exact .integer i
    · intro h
      generalize hn : integerText i = numeral at h
      cases h with
      | integer j =>
        have hr := Numeral.readInteger_integerText i
        rw [hn, Numeral.readInteger_integerText] at hr
        rw [Except.ok.inj hr]
      | float hne => exact absurd hn.symm (hne i)
  · have hne : ∀ i, numeral ≠ integerText i := fun i h => hi ⟨i, h⟩
    rw [ofNumeral?_of_ne hj hne, float?_eq_some_iff]
    constructor
    · rintro ⟨x, hr, hx, rfl⟩
      exact .float hne hr hx
    · intro h
      cases h with
      | integer i => exact absurd rfl (hne i)
      | float _ hr hx => exact ⟨_, hr, hx, rfl⟩

theorem documentText_ne_integerText (h : x.isFinite = true) (i : Int64) :
    documentLayout.write x ≠ integerText i := by
  intro he
  have hall := List.all_eq_true.1 (all_integerText i)
  rw [← he] at hall
  rcases NumberLayout.exists_mark_write documentLayout h with hm | hm
  · exact absurd (hall _ hm) (by decide)
  · exact absurd (hall _ hm) (by decide)

/-- What a finite value is read as from its document: numbers as the reader reads their texts, and
all other values as they are. -/
def ReadAs (reader : NumeralReader) : Value → Value → Prop
  | float x, w =>
    ∃ y, reader.read? (documentLayout.write x) = some y ∧ y.isFinite = true ∧ w = .float y
  | v, w => w = v

/-- A value that comes back from a document: a number has to be finite, and to be read from its
text. -/
def IsReadBack (reader : NumeralReader) (v : Value) : Prop :=
  ∀ x, v = .float x → x.isFinite = true ∧ reader.read? (documentLayout.write x) = some x

theorem readAs_self_iff (hv : v.isFinite = true) : v.ReadAs reader v ↔ v.IsReadBack reader := by
  cases v with
  | float x =>
    constructor
    · rintro ⟨y, hr, -, he⟩ z hz
      cases he
      cases hz
      exact ⟨hv, hr⟩
    · intro h
      exact ⟨x, (h x rfl).2, hv, rfl⟩
  | _ => exact iff_of_true rfl nofun

end Value

theorem Document.readValue_toJson_eq_ok_iff {reader : NumeralReader} {v w : Value}
    (hv : v.isFinite = true) : readValue reader v.toJson = .ok w ↔ v.ReadAs reader w := by
  cases v with
  | integer i =>
    rw [Value.toJson, readValue, Value.ofNumeral?_integerText, Except.ok.injEq, eq_comm]
    rfl
  | float x =>
    have hx : x.isFinite = true := hv
    have hj := NumberLayout.isNumeral_write Value.documentLayout (.inr rfl) hx
    rw [Value.toJson, if_pos hx, readValue,
      Value.ofNumeral?_of_ne hj (Value.documentText_ne_integerText hx), Value.ReadAs,
      ← Value.float?_eq_some_iff]
    cases Value.ofNumeral?.float? reader (Value.documentLayout.write x) <;> simp
  | _ => exact ⟨fun h => (Except.ok.inj h).symm, fun h => congrArg Except.ok (Eq.symm h)⟩

end TableStore

import TableStore.Json.Token
import TableStore.Number.Numeral
import TableStore.Proofs.NumberText
import TableStore.Value

/-!
# Numerals read back

The text of a finite number and that of an integer are numerals of JSON, and each is read as what
was written.
-/
namespace TableStore

namespace NumberLayout

open Decimal Json

theorem natOfDigits_toDigits {n : Nat} : natOfDigits (Nat.toDigits 10 n) = n :=
  Nat.ofDigitChars_ten_toDigits

theorem isWholePart_of_leading {ds : List Char} (h : Leading ds) : isWholePart ds = true := by
  obtain ⟨c, cs, rfl⟩ := List.exists_cons_of_ne_nil h.ne_nil
  have hc : c ≠ '0' := fun hc => h.head (by rw [hc]; rfl)
  unfold isWholePart
  split <;> simp_all

theorem isUnsignedNumeral_append {w t : List Char} (hw : ∀ c ∈ w, c.isDigit = true)
    (hwhole : isWholePart w = true) (hd : ∀ c ∈ t.head?, c.isDigit = false)
    (ht : isNumeralTail t = true) : isUnsignedNumeral (w ++ t) = true := by
  have hs := span_digits hw hd
  rw [List.span_eq_takeWhile_dropWhile, Prod.mk.injEq] at hs
  rw [isUnsignedNumeral, hs.1, hs.2, hwhole, ht]
  rfl

theorem isNumeralTail_point {f t : List Char} (hf : ∀ c ∈ f, c.isDigit = true)
    (hne : f ≠ []) (hd : ∀ c ∈ t.head?, c.isDigit = false)
    (ht : (readExponent natOfDigits t).isSome = true) :
    isNumeralTail ('.' :: (f ++ t)) = true := by
  have hs := span_digits hf hd
  rw [List.span_eq_takeWhile_dropWhile, Prod.mk.injEq] at hs
  simp [isNumeralTail, hs.1, hs.2, hne, ht]

theorem isUnsignedNumeral_point {w f : List Char} (hw : ∀ c ∈ w, c.isDigit = true)
    (hwhole : isWholePart w = true) (hf : ∀ c ∈ f, c.isDigit = true)
    (hne : f ≠ []) : isUnsignedNumeral (w ++ '.' :: f) = true := by
  have ht := isNumeralTail_point hf hne (t := []) (by simp) rfl
  rw [List.append_nil] at ht
  exact isUnsignedNumeral_append hw hwhole (by simp) ht

theorem Leading.take {ds : List Char} (h : Leading ds) (k : Nat) : Leading (ds.take (k + 1)) := by
  obtain ⟨c, cs, rfl⟩ := List.exists_cons_of_ne_nil h.ne_nil
  exact ⟨fun x hx => h.digits x (List.mem_of_mem_take hx), by simp, by simpa using h.head⟩

theorem isUnsignedNumeral_plain {ds : List Char} (h : Leading ds) (p : Int) :
    isUnsignedNumeral (plain ds p) = true := by
  cases p with
  | negSucc k =>
    refine isUnsignedNumeral_point (w := ['0']) (by simp) rfl (fun c hc => ?_) (by simp [h.ne_nil])
    exact (List.mem_append.1 hc).elim isDigit_of_mem_zeros (h.digits c)
  | ofNat k =>
    by_cases hk : ds.length ≤ k + 1
    · have hl : Leading (ds ++ zeros (k + 1 - ds.length)) := by
        refine ⟨fun c hc => (List.mem_append.1 hc).elim (h.digits c) isDigit_of_mem_zeros,
          by simp [h.ne_nil], ?_⟩
        rw [List.head?_append_of_ne_nil _ h.ne_nil]
        exact h.head
      rw [plain, if_pos hk]
      exact isUnsignedNumeral_point (f := ['0']) hl.digits (isWholePart_of_leading hl)
        (by simp) (by simp)
    · rw [plain, if_neg hk]
      refine isUnsignedNumeral_point (h.take k).digits (isWholePart_of_leading (h.take k))
        (fun c hc => h.digits c (List.mem_of_mem_drop hc)) ?_
      rw [ne_eq, List.drop_eq_nil_iff]
      omega

theorem isUnsignedNumeral_withExponent {plus : String} (hplus : plus = "" ∨ plus = "+")
    {ds : List Char} (h : Leading ds) (p : Int) :
    isUnsignedNumeral (withExponent plus ds p) = true := by
  have he : (readExponent natOfDigits ('e' :: ((if p < 0 then ['-'] else plus.toList) ++
      Nat.toDigits 10 p.natAbs))).isSome = true := by
    rw [readExponent_written hplus natOfDigits_toDigits]
    rfl
  obtain ⟨c, cs, rfl⟩ := List.exists_cons_of_ne_nil h.ne_nil
  cases cs with
  | nil =>
    exact isUnsignedNumeral_append (w := [c]) h.digits (isWholePart_of_leading h) (by simp) he
  | cons c' cs =>
    have ht := isNumeralTail_point (fun x hx => h.digits x (List.mem_cons_of_mem c hx)) (by simp)
      (by simp) he
    have hw := isUnsignedNumeral_append (h.take 0).digits (isWholePart_of_leading (h.take 0))
      (by simp) ht
    simpa [withExponent] using hw

theorem isUnsignedNumeral_writeUnsigned (l : NumberLayout)
    (hplus : l.exponentPlus = "" ∨ l.exponentPlus = "+") {x : Binary64} (h : x.isFinite = true) :
    isUnsignedNumeral (l.writeUnsigned x) = true := by
  by_cases hx : x.scaled = 0
  · rw [writeUnsigned, if_pos hx]
    rfl
  · obtain ⟨ds, p, hw, hl, -⟩ := writeUnsigned_eq l h hx
    rw [hw, layOut]
    split
    · exact isUnsignedNumeral_plain hl p
    · exact isUnsignedNumeral_withExponent hplus hl p

theorem isDigit_head_of_isUnsignedNumeral {cs : List Char} (h : isUnsignedNumeral cs = true) :
    ∀ c ∈ cs.head?, c.isDigit = true := by
  intro c hc
  cases cs with
  | nil => cases hc
  | cons d ds =>
    cases hc
    by_contra hd
    rw [isUnsignedNumeral, List.takeWhile_cons_of_neg hd] at h
    cases h

theorem isNumeral_of_isUnsignedNumeral {cs : List Char} (h : isUnsignedNumeral cs = true) :
    isNumeral cs = true := by
  have hh := isDigit_head_of_isUnsignedNumeral h
  unfold isNumeral
  split
  · exact absurd (hh '-' rfl) (by decide)
  · exact h

theorem isNumeral_minus {cs : List Char} (h : isUnsignedNumeral cs = true) :
    isNumeral ('-' :: cs) = true := h

theorem isNumeral_write (l : NumberLayout) (hplus : l.exponentPlus = "" ∨ l.exponentPlus = "+")
    {x : Binary64} (h : x.isFinite = true) : isNumeral (l.write x).toList = true := by
  have hu := isUnsignedNumeral_writeUnsigned l hplus h
  rw [write, String.toList_ofList]
  split
  · exact isNumeral_minus hu
  · exact isNumeral_of_isUnsignedNumeral hu

theorem read_minus (cs : List Char) : Decimal.read ('-' :: cs) = readUnsigned natOfDigits true cs :=
  rfl

theorem read_of_isDigit {cs : List Char} (h : ∀ c ∈ cs.head?, c.isDigit = true) :
    Decimal.read cs = readUnsigned natOfDigits false cs := by
  rw [Decimal.read, takeSign_of_isDigit h]

/-- A finite number is read back from its text, whatever the layout. -/
theorem read_write (l : NumberLayout) (hplus : l.exponentPlus = "" ∨ l.exponentPlus = "+")
    {x : Binary64} (h : x.isFinite = true) :
    ∃ d, Decimal.read (l.write x).toList = some d ∧ d.toBinary64 = x := by
  obtain ⟨d, hr, hd⟩ := readUnsigned_writeUnsigned l hplus h
  have hh := isDigit_head_of_isUnsignedNumeral (isUnsignedNumeral_writeUnsigned l hplus h)
  refine ⟨d, ?_, hd⟩
  rw [write, String.toList_ofList]
  cases hn : x.isNegative with
  | true => rw [if_pos rfl, read_minus, ← hn, hr]
  | false => rw [if_neg Bool.false_ne_true, read_of_isDigit hh, ← hn, hr]

end NumberLayout

namespace Numeral

open Decimal Json NumberLayout

theorem le_ofDigitChars (ds : List Char) (n : Nat) : n ≤ Nat.ofDigitChars 10 ds n := by
  rw [Nat.ofDigitChars_eq_ofDigitChars_zero]
  exact (Nat.le_mul_of_pos_left n (Nat.pow_pos (by omega))).trans (Nat.le_add_right _ _)

/-- Digits of a number in range are all taken. -/
theorem appendDigits_eq_ok {negative : Bool} {ds : List Char} {n : Nat}
    (hd : ∀ c ∈ ds, c.isDigit = true)
    (h : Nat.ofDigitChars 10 ds n < 2 ^ 63 + if negative then 1 else 0) :
    appendDigits negative n ds = .ok (Int64.ofInt
      (if negative then -Int.ofNat (Nat.ofDigitChars 10 ds n)
        else Int.ofNat (Nat.ofDigitChars 10 ds n))) := by
  induction ds generalizing n with
  | nil => rfl
  | cons c cs ih =>
    rw [Nat.ofDigitChars_cons] at h
    have hle := le_ofDigitChars cs (10 * n + (c.toNat - '0'.toNat))
    have hc : ¬ (!c.isDigit) = true := by simp [hd c (by simp)]
    rw [appendDigits, Nat.ofDigitChars_cons, ← ih (fun x hx => hd x (by simp [hx])) h, if_neg hc]
    cases negative with
    | true =>
      rw [if_pos rfl] at h
      rw [if_pos rfl, if_neg (by omega)]
    | false =>
      rw [if_neg Bool.false_ne_true] at h
      rw [if_neg Bool.false_ne_true, if_neg (by omega)]

theorem readInteger_minus {ds : List Char} (h : ds ≠ []) :
    readInteger (String.ofList ('-' :: ds)) = appendDigits true 0 ds := by
  rw [readInteger, String.toList_ofList]
  cases ds with
  | nil => exact absurd rfl h
  | cons c cs => rfl

theorem readInteger_of_isDigit {ds : List Char} (h : ∀ c ∈ ds.head?, c.isDigit = true)
    (hne : ds ≠ []) : readInteger (String.ofList ds) = appendDigits false 0 ds := by
  rw [readInteger, String.toList_ofList, takeSign_of_isDigit h]
  cases ds with
  | nil => exact absurd rfl hne
  | cons c cs => rfl

/-- An integer is read back from its text. -/
theorem readInteger_integerText (i : Int64) : readInteger (Value.integerText i) = .ok i := by
  have hlo := i.le_toInt
  have hhi := i.toInt_lt
  have hd : ∀ c ∈ Nat.toDigits 10 i.toInt.natAbs, c.isDigit = true := fun c => isDigit_of_mem_toDigits
  rw [Value.integerText]
  split
  · rw [readInteger_minus Nat.toDigits_ne_nil, appendDigits_eq_ok hd, Nat.ofDigitChars_ten_toDigits]
    · rw [if_pos rfl, Int.ofNat_eq_natCast, Int.ofNat_natAbs_of_nonpos (by omega), Int.neg_neg,
        Int64.ofInt_toInt]
    · rw [Nat.ofDigitChars_ten_toDigits, if_pos rfl]
      omega
  · rw [readInteger_of_isDigit (fun c hc => hd c (List.mem_of_mem_head? hc)) Nat.toDigits_ne_nil,
      appendDigits_eq_ok hd, Nat.ofDigitChars_ten_toDigits]
    · rw [if_neg Bool.false_ne_true, Int.ofNat_eq_natCast, Int.natAbs_of_nonneg (by omega),
        Int64.ofInt_toInt]
    · rw [Nat.ofDigitChars_ten_toDigits, if_neg Bool.false_ne_true]
      omega

theorem isUnsignedNumeral_toDigits (n : Nat) : isUnsignedNumeral (Nat.toDigits 10 n) = true := by
  have hw : isWholePart (Nat.toDigits 10 n) = true := by
    by_cases hn : n = 0
    · simp [hn, isWholePart]
    · exact isWholePart_of_leading (leading_toDigits hn)
  have h := isUnsignedNumeral_append (t := []) (fun c => isDigit_of_mem_toDigits) hw (by simp) rfl
  rwa [List.append_nil] at h

theorem isNumeral_integerText (i : Int64) : isNumeral (Value.integerText i).toList = true := by
  rw [Value.integerText, String.toList_ofList]
  split
  · exact isNumeral_minus (isUnsignedNumeral_toDigits _)
  · exact isNumeral_of_isUnsignedNumeral (isUnsignedNumeral_toDigits _)

end Numeral

end TableStore

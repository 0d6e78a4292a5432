import TableStore.Proofs.Numeral

/-!
# Floating-point text

A finite number is read back from the text that answers show for it. The reader of literals cuts
long exponents short, so the exponents that are written have to be in its reach.
-/
namespace TableStore

namespace Binary64

theorem nearestCode_of_large {num den k j : Nat} (hd : 0 < den) (hk : 311 ≤ k) (hj : 1074 ≤ j)
    (h : den * 10 ^ k ≤ num) : nearestCode (num * 2 ^ j) den = infinityCode := by
  apply nearestCode_eq_infinity (k := 33 * ((k - 1) / 10) + 1 + j) (by omega)
  rw [Nat.le_div_iff_mul_le hd, Nat.pow_add, Nat.mul_right_comm]
  refine Nat.mul_le_mul_right _ (le_trans ?_ h)
  rw [Nat.mul_comm]
  exact Nat.mul_le_mul_left den (two_pow_le_ten_pow (by omega))

theorem nearestCode_of_small {num den k j : Nat} (hk : 331 ≤ k) (hj : j ≤ 1074)
    (h : num * 10 ^ k < den) : nearestCode (num * 2 ^ j) den = 0 := by
  have ht : 2 ^ (j + 1) ≤ 10 ^ k :=
    (Nat.pow_le_pow_right (by omega) (by omega)).trans (two_pow_le_ten_pow (by omega))
  rw [Nat.pow_succ] at ht
  refine nearestCode_eq_zero (lt_of_le_of_lt ?_ h)
  rw [Nat.mul_comm 2, Nat.mul_assoc]
  exact Nat.mul_le_mul_left num ht

theorem isNaN_of_isFinite {x : Binary64} (h : x.isFinite = true) : x.isNaN = false := by
  have hc : x.code < infinityCode := of_decide_eq_true h
  exact decide_eq_false (by omega)

end Binary64

namespace NumberLayout

open Decimal

theorem isDigit_iff {c : Char} : c.isDigit = true ↔ 48 ≤ c.toNat ∧ c.toNat ≤ 57 := by
  unfold Char.isDigit
  simp [UInt32.le_iff_toNat_le]

/-- Digits make less than the power of ten of their number. -/
theorem ofDigitChars_lt {ds : List Char} (hd : ∀ c ∈ ds, c.isDigit = true) (n : Nat) :
    Nat.ofDigitChars 10 ds n < (n + 1) * 10 ^ ds.length := by
  induction ds generalizing n with
  | nil => simp
  | cons c cs ih =>
    rw [List.forall_mem_cons] at hd
    have hc : c.toNat - '0'.toNat ≤ 9 := by
      have h := (isDigit_iff.1 hd.1).2
      have h0 : '0'.toNat = 48 := rfl
      omega
    calc Nat.ofDigitChars 10 (c :: cs) n
        < (10 * n + (c.toNat - '0'.toNat) + 1) * 10 ^ cs.length := by
          rw [Nat.ofDigitChars_cons]
          exact ih hd.2 _
      _ ≤ (n + 1) * 10 * 10 ^ cs.length := Nat.mul_le_mul_right _ (by omega)
      _ = (n + 1) * 10 ^ (c :: cs).length := by
          rw [List.length_cons, Nat.pow_succ, Nat.mul_assoc, Nat.mul_comm 10]

/-- Without a zero in front they make no less than the power of ten before it. -/
theorem Leading.pow_le {ds : List Char} (h : Leading ds) :
    10 ^ (ds.length - 1) ≤ natOfDigits ds := by
  obtain ⟨c, cs, rfl⟩ := List.exists_cons_of_ne_nil h.ne_nil
  have hc : 1 ≤ c.toNat - '0'.toNat := by
    have hd := (isDigit_iff.1 (h.digits c (by simp))).1
    have h0 : '0'.toNat = 48 := rfl
    have hne : c.toNat ≠ '0'.toNat := fun he => h.head (by rw [Char.toNat_inj.1 he]; rfl)
    omega
  rw [natOfDigits, Nat.ofDigitChars_cons, Nat.ofDigitChars_eq_ofDigitChars_zero]
  exact (Nat.le_mul_of_pos_right _ (by omega)).trans (Nat.le_add_right _ _)

/-- The exponent of a finite number other than zero is in the range of the finite numbers. -/
theorem exponent_bounds {x : Binary64} (hx : x.isFinite = true) (hz : x.scaled ≠ 0)
    {ds : List Char} (h : Leading ds) {p : Int} {negative : Bool}
    (hv : toBinary64 ⟨negative, natOfDigits ds, p + 1 - ds.length⟩ = x) : -332 ≤ p ∧ p < 311 := by
  have hlo := h.pow_le
  have hhi : natOfDigits ds < 10 ^ ds.length := by
    simpa [natOfDigits] using ofDigitChars_lt h.digits 0
  have hl : 1 ≤ ds.length := List.length_pos_of_ne_nil h.ne_nil
  have hc : x.code < Binary64.infinityCode := of_decide_eq_true hx
  have hc0 : x.code ≠ 0 := mt Binary64.scaled_eq_zero_iff.2 hz
  by_contra hp
  generalize hq : p + 1 - (ds.length : Int) = q at hv
  cases q with
  | ofNat k =>
    rw [Int.ofNat_eq_natCast] at hq
    rw [toBinary64_ofNat] at hv
    rw [← hv, Binary64.code_ofRatio, Binary64.unitsInOne,
      Binary64.nearestCode_of_large (k := ds.length - 1 + k) (by omega) (by omega) le_rfl] at hc
    · omega
    · rw [Nat.one_mul, Nat.pow_add]
      exact Nat.mul_le_mul_right _ hlo
  | negSucc k =>
    rw [toBinary64_negSucc] at hv
    rw [← hv, Binary64.code_ofRatio, Binary64.unitsInOne] at hc hc0
    have hpos : 0 < 10 ^ (k + 1) := Nat.pow_pos (by omega)
    by_cases hp' : 311 ≤ p
    · rw [Binary64.nearestCode_of_large (k := ds.length - 1 - (k + 1)) hpos (by omega) le_rfl] at hc
      · omega
      · rw [← Nat.pow_add, Nat.add_sub_cancel' (by omega)]
        exact hlo
    · apply hc0
      apply Binary64.nearestCode_of_small (k := k + 1 - ds.length) (by omega) le_rfl
      calc natOfDigits ds * 10 ^ (k + 1 - ds.length)
          < 10 ^ ds.length * 10 ^ (k + 1 - ds.length) :=
            Nat.mul_lt_mul_of_pos_right hhi (Nat.pow_pos (by omega))
        _ = 10 ^ (k + 1) := by rw [← Nat.pow_add, Nat.add_sub_cancel' (by omega)]

end NumberLayout

theorem Value.floatText_of_isFinite {x : Binary64} (h : x.isFinite = true) :
    floatText x = numberLayout.write x := by
  rw [floatText, Binary64.isNaN_of_isFinite h, h]
  rfl

namespace Numeral

open Decimal NumberLayout

/-- Digits of a number that is in reach all count. -/
theorem exponentOfDigits_toDigits {n : Nat} (h : n < 2 ^ 16) :
    exponentOfDigits (Nat.toDigits 10 n) = n := by
  have hf : ∀ (ds : List Char) (m : Nat), Nat.ofDigitChars 10 ds m < 2 ^ 16 →
      ds.foldl (fun n c => if n < 2 ^ 16 then 10 * n + (c.toNat - '0'.toNat) else n) m =
        Nat.ofDigitChars 10 ds m := by
    intro ds
    induction ds with
    | nil => exact fun m _ => rfl
    | cons c cs ih =>
      intro m hm
      have hle := le_ofDigitChars (c :: cs) m
      rw [List.foldl_cons, if_pos (by omega), Nat.ofDigitChars_cons]
      exact ih _ hm
  have ht : Nat.ofDigitChars 10 (Nat.toDigits 10 n) 0 = n := Nat.ofDigitChars_ten_toDigits
  exact (hf _ 0 (by rwa [ht])).trans ht

/-- What is written for a finite number is read as that number, its exponent being in reach. -/
theorem readUnsigned_exponentOfDigits (l : NumberLayout)
    (hplus : l.exponentPlus = "" ∨ l.exponentPlus = "+") {x : Binary64} (h : x.isFinite = true) :
    ∃ d, readUnsigned exponentOfDigits x.isNegative (l.writeUnsigned x) = some d ∧
      d.toBinary64 = x := by
  by_cases hx : x.scaled = 0
  · refine ⟨⟨x.isNegative, 0, -1⟩, ?_, ?_⟩
    · rw [writeUnsigned, if_pos hx]
      rfl
    · rw [toBinary64, if_pos rfl, Binary64.zero_of_scaled hx]
  · obtain ⟨ds, p, hw, hl, hv⟩ := writeUnsigned_eq l h hx
    have hp := exponent_bounds h hx hl hv
    obtain ⟨d, hr, hd⟩ := readUnsigned_layOut l hplus x.isNegative hl (p := p)
      (exponentOfDigits_toDigits (by omega))
    rw [hw]
    exact ⟨d, hr, hd.trans hv⟩

theorem readFloat_eq_ok {s : String} {negative : Bool} {cs : List Char} {d : Decimal}
    (hs : takeSign s.toList = (negative, cs))
    (hr : readUnsigned exponentOfDigits negative cs = some d) : readFloat s = .ok d.toBinary64 := by
  unfold readFloat
  split
  · rename_i he
    rw [List.isEmpty_iff.1 he] at hs
    cases hs
    cases hr
  · rw [hs]
    dsimp only
    rw [hr]

theorem takeSign_write (l : NumberLayout) (hplus : l.exponentPlus = "" ∨ l.exponentPlus = "+")
    {x : Binary64} (h : x.isFinite = true) :
    takeSign (l.write x).toList = (x.isNegative, l.writeUnsigned x) := by
  have hh := isDigit_head_of_isUnsignedNumeral (isUnsignedNumeral_writeUnsigned l hplus h)
  rw [write, String.toList_ofList]
  cases hn : x.isNegative with
  | true =>
    rw [if_pos rfl]
    rfl
  | false =>
    rw [if_neg Bool.false_ne_true]
    exact takeSign_of_isDigit hh

theorem readFloat_write (l : NumberLayout) (hplus : l.exponentPlus = "" ∨ l.exponentPlus = "+")
    {x : Binary64} (h : x.isFinite = true) : readFloat (l.write x) = .ok x := by
  obtain ⟨d, hr, hd⟩ := readUnsigned_exponentOfDigits l hplus h
  rw [readFloat_eq_ok (takeSign_write l hplus h) hr, hd]

theorem readFloat_floatText {x : Binary64} (h : x.isFinite = true) :
    readFloat (Value.floatText x) = .ok x := by
  rw [Value.floatText_of_isFinite h]
  exact readFloat_write Value.numberLayout (.inl rfl) h

end Numeral

end TableStore

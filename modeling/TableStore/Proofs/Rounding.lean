import Mathlib.Tactic.Ring
import TableStore.Number.Decimal

/-!
# Rounding

What the nearest binary64 number depends on: the ratio alone, not how it is written. A finite
number is nearest to its own magnitude, and zeros at the end of a numeral's digits count like its
power.
-/
namespace TableStore

namespace Binary64

theorem roundedQuotient_mul_right (num den : Nat) {k : Nat} (hk : 0 < k) :
    roundedQuotient (num * k) (den * k) = roundedQuotient num den := by
  have hlt : 2 * (num % den * k) < den * k ↔ 2 * (num % den) < den := by
    rw [← Nat.mul_assoc]
    exact Nat.mul_lt_mul_right hk
  have heq : 2 * (num % den * k) = den * k ↔ 2 * (num % den) = den := by
    rw [← Nat.mul_assoc]
    exact Nat.mul_left_inj hk.ne'
  simp only [roundedQuotient, Nat.mul_div_mul_right _ _ hk, Nat.mul_mod_mul_right, Bool.or_eq_true,
    Bool.and_eq_true, decide_eq_true_eq, beq_iff_eq, hlt, heq]

theorem nearestCode_mul_right (num den : Nat) {k : Nat} (hk : 0 < k) :
    nearestCode (num * k) (den * k) = nearestCode num den := by
  simp only [nearestCode, Nat.mul_div_mul_right _ _ hk, Nat.mul_right_comm den k,
    roundedQuotient_mul_right _ _ hk]

theorem ofRatio_mul_right (negative : Bool) (num den : Nat) {k : Nat} (hk : 0 < k) :
    ofRatio negative (num * k) (den * k) = ofRatio negative num den := by
  rw [ofRatio, ofRatio, Nat.mul_right_comm, nearestCode_mul_right _ _ hk]

theorem roundedQuotient_mul_self (n : Nat) {den : Nat} (h : 0 < den) :
    roundedQuotient (n * den) den = n := by
  simp [roundedQuotient, h]

theorem le_roundedQuotient (num den : Nat) : num / den ≤ roundedQuotient num den := by
  unfold roundedQuotient
  dsimp only
  split <;> omega

theorem roundedQuotient_le (num den : Nat) : roundedQuotient num den ≤ num / den + 1 := by
  unfold roundedQuotient
  dsimp only
  split <;> omega

theorem log2_mul_two_pow {n : Nat} (h : n ≠ 0) (k : Nat) :
    Nat.log2 (n * 2 ^ k) = Nat.log2 n + k := by
  apply (Nat.log2_eq_iff (Nat.mul_ne_zero h (Nat.two_pow_pos k).ne')).2
  rw [Nat.pow_add, Nat.add_right_comm, Nat.pow_add]
  exact ⟨Nat.mul_le_mul_right _ (Nat.log2_self_le h),
    Nat.mul_lt_mul_of_pos_right Nat.lt_log2_self (Nat.two_pow_pos k)⟩

/-- Rounding leaves fifty-three bits, or all where there are fewer; or it is up to `2 ^ 53`. -/
theorem roundedQuotient_bounds (n : Nat) :
    (Nat.log2 n - 52 = 0 ∨ 2 ^ 52 ≤ roundedQuotient n (2 ^ (Nat.log2 n - 52))) ∧
      roundedQuotient n (2 ^ (Nat.log2 n - 52)) ≤ 2 ^ 53 := by
  have hlo := le_roundedQuotient n (2 ^ (Nat.log2 n - 52))
  have hhi := roundedQuotient_le n (2 ^ (Nat.log2 n - 52))
  have hlt : n / 2 ^ (Nat.log2 n - 52) < 2 ^ 53 := by
    rw [Nat.div_lt_iff_lt_mul (Nat.two_pow_pos _), ← Nat.pow_add]
    exact Nat.lt_log2_self.trans_le (Nat.pow_le_pow_right (by omega) (by omega))
  refine ⟨or_iff_not_imp_left.2 fun he => le_trans ?_ hlo, by omega⟩
  have hn : n ≠ 0 := by
    rintro rfl
    exact he rfl
  rw [Nat.le_div_iff_mul_le (Nat.two_pow_pos _), ← Nat.pow_add, Nat.add_sub_cancel' (by omega)]
  exact Nat.log2_self_le hn

theorem nearestCode_one_of_lt {n : Nat} (h : n < 2 ^ 53) : nearestCode n 1 = n := by
  have hl : Nat.log2 n - 52 = 0 := by
    by_cases hn : n = 0
    · simp [hn]
    · have := (Nat.log2_lt hn).2 h
      omega
  have hi : n ≤ infinityCode := by
    unfold infinityCode
    omega
  have hr : roundedQuotient n 1 = n := by simpa using roundedQuotient_mul_self n Nat.one_pos
  simp [nearestCode, hl, hr, hi]

theorem nearestCode_one_of_le {m e : Nat} (hlo : 2 ^ 52 ≤ m) (hhi : m < 2 ^ 53)
    (hi : e * 2 ^ 52 + m ≤ infinityCode) : nearestCode (m * 2 ^ e) 1 = e * 2 ^ 52 + m := by
  have hm : m ≠ 0 := by omega
  have hl : Nat.log2 (m * 2 ^ e) = 52 + e := by
    rw [log2_mul_two_pow hm, (Nat.log2_eq_iff hm).2 ⟨hlo, hhi⟩]
  simp only [nearestCode, Nat.div_one, hl, Nat.add_sub_cancel_left, Nat.one_mul,
    roundedQuotient_mul_self m (Nat.two_pow_pos e)]
  exact Nat.min_eq_left hi

/-- A finite number is the one nearest to its own magnitude. -/
theorem nearestCode_scaled {x : Binary64} (h : x.isFinite = true) :
    nearestCode x.scaled 1 = x.code := by
  have hlt : x.code < infinityCode := of_decide_eq_true h
  by_cases hs : x.code < 2 ^ 53
  · have he : x.exponent = 0 := by
      unfold exponent
      omega
    simp [scaled, significand, he, nearestCode_one_of_lt hs]
  · have hc : x.exponent * 2 ^ 52 + x.significand = x.code := by
      unfold significand exponent
      omega
    have hsig : 2 ^ 52 ≤ x.significand ∧ x.significand < 2 ^ 53 := by
      unfold significand exponent
      omega
    rw [scaled, nearestCode_one_of_le hsig.1 hsig.2 (by omega), hc]

theorem ofCode_code (x : Binary64) : ofCode x.isNegative x.code = x := by
  have hx := x.bits.toNat_lt
  have hb : (if x.isNegative then 2 ^ 63 else 0) + x.code = x.bits.toNat := by
    by_cases hn : 2 ^ 63 ≤ x.bits.toNat <;> simp only [isNegative, code, hn] <;> simp <;> omega
  rw [ofCode, hb, UInt64.ofNat_toNat]

theorem code_ofRatio (negative : Bool) (num den : Nat) :
    (ofRatio negative num den).code = nearestCode (num * unitsInOne) den :=
  code_ofCode negative ((nearestCode_le _ _).trans_lt (by decide))

theorem isNegative_ofRatio (negative : Bool) (num den : Nat) :
    (ofRatio negative num den).isNegative = negative :=
  isNegative_ofCode negative ((nearestCode_le _ _).trans_lt (by decide))

/-- Below half of the smallest unit nothing is left. -/
theorem nearestCode_eq_zero {num den : Nat} (h : 2 * num < den) : nearestCode num den = 0 := by
  have hq : num / den = 0 := Nat.div_eq_of_lt (by omega)
  have hr : roundedQuotient num den = 0 := by
    simp [roundedQuotient, hq, Nat.mod_eq_of_lt (show num < den by omega), h]
  simp [nearestCode, hq, hr]

theorem ofRatio_zero (negative : Bool) {den : Nat} (h : 0 < den) :
    ofRatio negative 0 den = .zero negative := by
  rw [ofRatio, Nat.zero_mul, nearestCode_eq_zero (by omega)]
  rfl

theorem nearestCode_eq_infinity {num den k : Nat} (hk : 2098 ≤ k) (h : 2 ^ k ≤ num / den) :
    nearestCode num den = infinityCode := by
  have hpos : 0 < num / den := Nat.lt_of_lt_of_le (Nat.two_pow_pos k) h
  have hl : 2098 ≤ Nat.log2 (num / den) := hk.trans ((Nat.le_log2 hpos.ne').2 h)
  have hq : 2 ^ 52 ≤ num / (den * 2 ^ (Nat.log2 (num / den) - 52)) := by
    rw [← Nat.div_div_eq_div_mul, Nat.le_div_iff_mul_le (Nat.two_pow_pos _), ← Nat.pow_add,
      Nat.add_sub_cancel' (by omega)]
    exact Nat.log2_self_le hpos.ne'
  have hr := hq.trans (le_roundedQuotient num (den * 2 ^ (Nat.log2 (num / den) - 52)))
  apply Nat.min_eq_right
  have := Nat.mul_le_mul_right (2 ^ 52) (show 2046 ≤ Nat.log2 (num / den) - 52 by omega)
  unfold infinityCode
  omega

theorem nearestCode_one_lt {n k : Nat} (h : n < 2 ^ k) (hk : k ≤ 2097) :
    nearestCode n 1 < infinityCode := by
  have he : Nat.log2 n - 52 ≤ 2044 := by
    by_cases hn : n = 0
    · simp [hn]
    · have := (Nat.log2_lt hn).2 h
      omega
  have hq := (roundedQuotient_bounds n).2
  have := Nat.mul_le_mul_right (2 ^ 52) he
  apply (Nat.min_le_left _ _).trans_lt
  rw [Nat.div_one, Nat.one_mul]
  unfold infinityCode
  omega

theorem nearestCode_mul_two_pow_lt {n k j : Nat} (h : n < 2 ^ k) (hk : k + j ≤ 2097) :
    nearestCode (n * 2 ^ j) 1 < infinityCode := by
  apply nearestCode_one_lt (k := k + j) _ hk
  rw [Nat.pow_add]
  exact Nat.mul_lt_mul_of_pos_right h (Nat.two_pow_pos j)

/-- A sixty-four bit integer is in the range of the finite numbers. -/
theorem isFinite_ofInt (i : Int64) : (ofInt i.toInt).isFinite = true := by
  have hlo := i.le_toInt
  have hhi := i.toInt_lt
  have hn : i.toInt.natAbs < 2 ^ 64 := by omega
  rw [isFinite, ofInt, code_ofRatio, decide_eq_true_eq]
  exact nearestCode_mul_two_pow_lt hn (by omega)

/-- Digits that a power of ten puts below half of the smallest unit are lost. -/
theorem nearestCode_tiny {n k j : Nat} (h : Nat.log2 n + 2 + j ≤ 3 * k) :
    nearestCode (n * 2 ^ j) (10 ^ k) = 0 := by
  apply nearestCode_eq_zero
  calc 2 * (n * 2 ^ j) = n * 2 ^ (j + 1) := by rw [Nat.pow_succ]; ring
    _ < 2 ^ (Nat.log2 n + 1) * 2 ^ (j + 1) :=
        Nat.mul_lt_mul_of_pos_right Nat.lt_log2_self (Nat.two_pow_pos _)
    _ = 2 ^ (Nat.log2 n + 1 + (j + 1)) := (Nat.pow_add 2 _ _).symm
    _ ≤ 2 ^ (3 * k) := Nat.pow_le_pow_right (by omega) (by omega)
    _ = 8 ^ k := Nat.pow_mul 2 3 k
    _ ≤ 10 ^ k := Nat.pow_le_pow_left (by omega) k

theorem two_pow_le_ten_pow {k : Nat} (h : 1 ≤ k) : 2 ^ (33 * ((k - 1) / 10) + 1) ≤ 10 ^ k := by
  calc 2 ^ (33 * ((k - 1) / 10) + 1) = (2 ^ 33) ^ ((k - 1) / 10) * 2 := by
        rw [Nat.pow_succ, Nat.pow_mul]
    _ ≤ (10 ^ 10) ^ ((k - 1) / 10) * 10 :=
        Nat.mul_le_mul (Nat.pow_le_pow_left (by omega) _) (by omega)
    _ = 10 ^ (10 * ((k - 1) / 10) + 1) := by rw [Nat.pow_succ 10 (10 * _), Nat.pow_mul]
    _ ≤ 10 ^ k := Nat.pow_le_pow_right (by omega) (by omega)

/-- A power of ten above `310` is beyond the range. -/
theorem nearestCode_huge {n k j : Nat} (hn : 0 < n) (hk : 311 ≤ k) (hj : 1074 ≤ j) :
    nearestCode (n * 10 ^ k * 2 ^ j) 1 = infinityCode := by
  apply nearestCode_eq_infinity (k := 33 * ((k - 1) / 10) + 1 + j) (by omega)
  rw [Nat.div_one, Nat.pow_add]
  exact Nat.mul_le_mul_right _
    ((two_pow_le_ten_pow (by omega)).trans (Nat.le_mul_of_pos_left _ hn))

end Binary64

namespace Decimal

open Binary64

/-- The value of a numeral whose power is not negative; the guards make no difference. -/
theorem toBinary64_ofNat (negative : Bool) (n k : Nat) :
    toBinary64 ⟨negative, n, .ofNat k⟩ = .ofRatio negative (n * 10 ^ k) 1 := by
  unfold toBinary64
  by_cases hn : n = 0
  · simp [hn, ofRatio_zero]
  · have hlow : ¬ Int.ofNat (Nat.log2 n) + 1 + 3 * Int.ofNat k < -1075 := by
      simp only [Int.ofNat_eq_natCast]
      omega
    simp only [hn, if_false, hlow]
    split
    · rename_i hk
      simp only [Int.ofNat_eq_natCast] at hk
      rw [ofRatio, unitsInOne, nearestCode_huge (by omega) (by omega) le_rfl]
      rfl
    · rfl

theorem toBinary64_negSucc (negative : Bool) (n k : Nat) :
    toBinary64 ⟨negative, n, .negSucc k⟩ = .ofRatio negative n (10 ^ (k + 1)) := by
  unfold toBinary64
  by_cases hn : n = 0
  · simp [hn, ofRatio_zero]
  · have hhigh : ¬ 310 < Int.negSucc k := by omega
    simp only [hn, if_false, hhigh]
    split
    · rename_i hk
      simp only [Int.ofNat_eq_natCast] at hk
      rw [ofRatio, unitsInOne, nearestCode_tiny (by omega)]
      rfl
    · rfl

/-- Zeros at the end of the digits count like the power. -/
theorem toBinary64_mul_pow (negative : Bool) (n k : Nat) (p : Int) :
    toBinary64 ⟨negative, n * 10 ^ k, p⟩ = toBinary64 ⟨negative, n, p + k⟩ := by
  have hpos : ∀ j, 0 < 10 ^ j := fun j => Nat.pow_pos (by omega)
  cases p with
  | ofNat a =>
    have hp : Int.ofNat a + (k : Int) = .ofNat (k + a) := by
      simp only [Int.ofNat_eq_natCast]
      omega
    rw [hp, toBinary64_ofNat, toBinary64_ofNat, Nat.mul_assoc, ← Nat.pow_add]
  | negSucc a =>
    rw [toBinary64_negSucc]
    by_cases hk : k ≤ a
    · have hp : Int.negSucc a + (k : Int) = .negSucc (a - k) := by omega
      rw [hp, toBinary64_negSucc, ← ofRatio_mul_right negative n (10 ^ (a - k + 1)) (hpos k),
        ← Nat.pow_add, show a - k + 1 + k = a + 1 by omega]
    · have hp : Int.negSucc a + (k : Int) = .ofNat (k - (a + 1)) := by
        simp only [Int.ofNat_eq_natCast]
        omega
      rw [hp, toBinary64_ofNat, ← ofRatio_mul_right negative _ 1 (hpos (a + 1)), Nat.mul_assoc,
        ← Nat.pow_add, Nat.sub_add_cancel (by omega), Nat.one_mul]

end Decimal

end TableStore

import Mathlib.Tactic.Ring
import TableStore.Proofs.FloatText

/-!
# Magnitudes

Numbers in units of `2 ^ -1074`, where all of them are integers. They are in the order of their
codes; a natural number gets the magnitude of its leading fifty-three bits, rounded; and without its
fraction a number is a number again.
-/
namespace TableStore.Binary64

/-! Codes and magnitudes -/

theorem significand_lt (x : Binary64) : x.significand < 2 ^ 53 := by
  unfold significand exponent
  omega

/-- The significand has all its bits unless the unit is the smallest. -/
theorem le_significand {x : Binary64} (h : x.exponent ≠ 0) : 2 ^ 52 ≤ x.significand := by
  unfold significand
  unfold exponent at h ⊢
  omega

theorem code_eq (x : Binary64) : x.exponent * 2 ^ 52 + x.significand = x.code := by
  unfold significand exponent
  omega

/-- A significand of all bits, or of fewer with the smallest unit; one that is rounded up to
`2 ^ 53` counts too. -/
theorem scaled_ofCode (negative : Bool) {e m : Nat} (hlo : e = 0 ∨ 2 ^ 52 ≤ m) (hhi : m ≤ 2 ^ 53)
    (hc : e * 2 ^ 52 + m < 2 ^ 63) : (ofCode negative (e * 2 ^ 52 + m)).scaled = m * 2 ^ e := by
  have hcode := code_ofCode negative hc
  by_cases hm : m = 2 ^ 53
  · have he : (ofCode negative (e * 2 ^ 52 + m)).exponent = e + 1 := by
      rw [exponent, hcode]
      omega
    have hs : (ofCode negative (e * 2 ^ 52 + m)).significand = 2 ^ 52 := by
      rw [significand, he, hcode]
      omega
    rw [scaled, hs, he, hm, Nat.pow_succ 2 e, Nat.pow_succ 2 52]
    ring
  · have he : (ofCode negative (e * 2 ^ 52 + m)).exponent = e := by
      rw [exponent, hcode]
      omega
    have hs : (ofCode negative (e * 2 ^ 52 + m)).significand = m := by
      rw [significand, he, hcode]
      omega
    rw [scaled, hs, he]

theorem scaled_lt_scaled {x y : Binary64} (h : x.code < y.code) : x.scaled < y.scaled := by
  have hx := code_eq x
  have hy := code_eq y
  have hs := significand_lt x
  have hle : x.exponent ≤ y.exponent := by
    unfold exponent
    omega
  rcases hle.lt_or_eq with he | he
  · calc x.scaled < 2 ^ 53 * 2 ^ x.exponent := Nat.mul_lt_mul_of_pos_right hs (Nat.two_pow_pos _)
      _ = 2 ^ 52 * 2 ^ (x.exponent + 1) := by rw [Nat.pow_succ 2 x.exponent, Nat.pow_succ 2 52]; ring
      _ ≤ y.significand * 2 ^ y.exponent :=
          Nat.mul_le_mul (le_significand (by omega)) (Nat.pow_le_pow_right (by omega) he)
  · rw [scaled, scaled, he]
    exact Nat.mul_lt_mul_of_pos_right (by rw [he] at hx; omega) (Nat.two_pow_pos _)

theorem scaled_lt_scaled_iff {x y : Binary64} : x.scaled < y.scaled ↔ x.code < y.code := by
  refine ⟨fun h => ?_, scaled_lt_scaled⟩
  by_contra hc
  rcases (Nat.le_of_not_lt hc).lt_or_eq with hlt | heq
  · exact absurd (scaled_lt_scaled hlt) (by omega)
  · simp [scaled, significand, exponent, heq] at h

/-! Signs -/

/-- A finite number in units of `2 ^ -1074`. -/
def signedScaled (x : Binary64) : Int := if x.isNegative then -x.scaled else x.scaled

/-- Codes with signs are in the order of the numbers. -/
theorem signedCode_lt_signedCode_iff {x y : Binary64} :
    x.signedCode < y.signedCode ↔ x.signedScaled < y.signedScaled := by
  have hlt : x.scaled < y.scaled ↔ x.code < y.code := scaled_lt_scaled_iff
  have hgt : y.scaled < x.scaled ↔ y.code < x.code := scaled_lt_scaled_iff
  have hx : x.scaled = 0 ↔ x.code = 0 := scaled_eq_zero_iff
  have hy : y.scaled = 0 ↔ y.code = 0 := scaled_eq_zero_iff
  unfold signedCode signedScaled
  split <;> split <;> omega

theorem lt_eq_true_iff {x y : Binary64} (hx : x.isFinite = true) (hy : y.isFinite = true) :
    x.lt y = true ↔ x.signedScaled < y.signedScaled := by
  rw [lt, isNaN_of_isFinite hx, isNaN_of_isFinite hy, ← signedCode_lt_signedCode_iff]
  exact decide_eq_true_iff

theorem le_eq_true_iff {x y : Binary64} (hx : x.isFinite = true) (hy : y.isFinite = true) :
    x.le y = true ↔ x.signedScaled ≤ y.signedScaled := by
  have h : x.signedCode ≤ y.signedCode ↔ x.signedScaled ≤ y.signedScaled := by
    rw [← Int.not_lt, signedCode_lt_signedCode_iff, Int.not_lt]
  rw [le, isNaN_of_isFinite hx, isNaN_of_isFinite hy, ← h]
  exact decide_eq_true_iff

theorem unitsInOne_pos : 0 < unitsInOne := Nat.two_pow_pos 1074

theorem truncate_eq_tdiv (x : Binary64) : x.truncate = x.signedScaled.tdiv unitsInOne := by
  unfold truncate signedScaled
  split
  · rw [Int.neg_tdiv, ← Int.ofNat_tdiv, Int.ofNat_eq_natCast]
  · rw [← Int.ofNat_tdiv, Int.ofNat_eq_natCast]

/-! Rounding -/

/-- A natural number of which fifty-three bits are left, rounded to the nearest, a half to the even
neighbour. -/
def rounded (n : Nat) : Nat :=
  roundedQuotient n (2 ^ (Nat.log2 n - 52)) * 2 ^ (Nat.log2 n - 52)

theorem scaled_nearestCode_one (negative : Bool) {n : Nat} (h : nearestCode n 1 < infinityCode) :
    (ofCode negative (nearestCode n 1)).scaled = rounded n := by
  obtain ⟨hlo, hhi⟩ := roundedQuotient_bounds n
  have hi : infinityCode < 2 ^ 63 := by decide
  have hc : nearestCode n 1 =
      (Nat.log2 n - 52) * 2 ^ 52 + roundedQuotient n (2 ^ (Nat.log2 n - 52)) := by
    unfold nearestCode at h ⊢
    simp only [Nat.div_one, Nat.one_mul] at h ⊢
    omega
  rw [hc] at h ⊢
  exact scaled_ofCode negative hlo hhi (h.trans hi)

/-- What has no more than fifty-three bits stays as it is. -/
theorem rounded_mul_two_pow_of_lt {m : Nat} (h : m < 2 ^ 53) (k : Nat) :
    rounded (m * 2 ^ k) = m * 2 ^ k := by
  by_cases hm : m = 0
  · simp [hm, rounded, roundedQuotient]
  have hl : Nat.log2 m < 53 := (Nat.log2_lt hm).2 h
  obtain ⟨j, hj⟩ := Nat.exists_eq_add_of_le (show Nat.log2 (m * 2 ^ k) - 52 ≤ k by
    rw [log2_mul_two_pow hm]
    omega)
  have he : m * 2 ^ k = m * 2 ^ j * 2 ^ (Nat.log2 (m * 2 ^ k) - 52) := by
    rw [Nat.mul_assoc, ← Nat.pow_add, Nat.add_comm j, ← hj]
  unfold rounded
  generalize Nat.log2 (m * 2 ^ k) - 52 = e at he
  rw [he, roundedQuotient_mul_self _ (Nat.two_pow_pos e)]

theorem rounded_of_lt {n : Nat} (h : n < 2 ^ 53) : rounded n = n := by
  simpa using rounded_mul_two_pow_of_lt h 0

/-- Rounding looks at the leading bits alone. -/
theorem rounded_mul_two_pow (n k : Nat) : rounded (n * 2 ^ k) = rounded n * 2 ^ k := by
  by_cases hs : n < 2 ^ 53
  · rw [rounded_of_lt hs, rounded_mul_two_pow_of_lt hs]
  have hn : n ≠ 0 := by omega
  have hl : 52 ≤ Nat.log2 n := (Nat.le_log2 hn).2 (by omega)
  rw [rounded, log2_mul_two_pow hn, Nat.sub_add_comm hl, Nat.pow_add,
    roundedQuotient_mul_right _ _ (Nat.two_pow_pos k), ← Nat.mul_assoc, rounded]

theorem nearestCode_mul_unitsInOne_lt {n : Nat} (h : n < 2 ^ 64) :
    nearestCode (n * unitsInOne) 1 < infinityCode :=
  nearestCode_mul_two_pow_lt h (by omega)

theorem scaled_ofRatio_one (negative : Bool) {n : Nat} (h : n < 2 ^ 64) :
    (ofRatio negative n 1).scaled = rounded n * unitsInOne :=
  (scaled_nearestCode_one negative (nearestCode_mul_unitsInOne_lt h)).trans
    (rounded_mul_two_pow n 1074)

theorem signedScaled_ofRatio_one (negative : Bool) {n : Nat} (h : n < 2 ^ 64) :
    (ofRatio negative n 1).signedScaled =
      (if negative then -rounded n else rounded n : Int) * unitsInOne := by
  rw [signedScaled, isNegative_ofRatio, scaled_ofRatio_one negative h]
  cases negative <;> simp only [Int.natCast_mul, Int.neg_mul, reduceIte, Bool.false_eq_true]

/-- An integer rounded as its magnitude is. -/
def roundedInt (i : Int) : Int := if i < 0 then -rounded i.natAbs else rounded i.natAbs

theorem signedScaled_ofInt (i : Int64) :
    (ofInt i.toInt).signedScaled = roundedInt i.toInt * unitsInOne := by
  have hlo := i.le_toInt
  have hhi := i.toInt_lt
  rw [ofInt, signedScaled_ofRatio_one _ (show i.toInt.natAbs < 2 ^ 64 by omega), roundedInt]
  by_cases hi : i.toInt < 0 <;>
    simp only [hi, decide_true, decide_false, reduceIte, Bool.false_eq_true]

theorem truncate_ofInt (i : Int64) : (ofInt i.toInt).truncate = roundedInt i.toInt := by
  rw [truncate_eq_tdiv, signedScaled_ofInt]
  exact Int.mul_tdiv_cancel _ (by exact_mod_cast unitsInOne_pos.ne')

/-! Numbers without their fractions -/

/-- A finite number has no fraction, or few bits before it. -/
theorem whole_cases {x : Binary64} (h : x.isFinite = true) :
    x.whole = x ∧ unitsInOne ∣ x.scaled ∨
      x.whole = ofRatio x.isNegative (x.scaled / unitsInOne) 1 ∧ x.scaled / unitsInOne < 2 ^ 53 := by
  have hw : x.whole = ofRatio x.isNegative (x.scaled / unitsInOne) 1 := if_pos h
  by_cases he : 1074 ≤ x.exponent
  · have hd : unitsInOne ∣ x.scaled := (Nat.pow_dvd_pow 2 he).mul_left x.significand
    refine .inl ⟨?_, hd⟩
    rw [hw, ofRatio, Nat.div_mul_cancel hd, nearestCode_scaled h, ofCode_code]
  · refine .inr ⟨hw, lt_of_le_of_lt (Nat.div_le_of_le_mul ?_) (significand_lt x)⟩
    rw [scaled, Nat.mul_comm unitsInOne]
    exact Nat.mul_le_mul_left _ (Nat.pow_le_pow_right (by omega) (by omega))

theorem isFinite_whole {x : Binary64} (h : x.isFinite = true) : x.whole.isFinite = true := by
  rcases whole_cases h with ⟨hw, -⟩ | ⟨hw, hlt⟩
  · rwa [hw]
  · rw [hw, isFinite, code_ofRatio, decide_eq_true_eq]
    exact nearestCode_mul_unitsInOne_lt (hlt.trans (by omega))

/-- Nothing is lost but the fraction. -/
theorem signedScaled_whole {x : Binary64} (h : x.isFinite = true) :
    x.whole.signedScaled = x.truncate * unitsInOne := by
  rcases whole_cases h with ⟨hw, hd⟩ | ⟨hw, hlt⟩
  · rw [hw, signedScaled, truncate, Int.ofNat_eq_natCast]
    have hs : ((x.scaled / unitsInOne : Nat) : Int) * unitsInOne = x.scaled := by
      exact_mod_cast Nat.div_mul_cancel hd
    split
    · rw [Int.neg_mul, hs]
    · rw [hs]
  · rw [hw, signedScaled_ofRatio_one _ (hlt.trans (by omega)), rounded_of_lt hlt, truncate,
      Int.ofNat_eq_natCast]

theorem truncate_whole {x : Binary64} (h : x.isFinite = true) : x.whole.truncate = x.truncate := by
  rw [truncate_eq_tdiv, signedScaled_whole h]
  exact Int.mul_tdiv_cancel _ (by exact_mod_cast unitsInOne_pos.ne')

end TableStore.Binary64

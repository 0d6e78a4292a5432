import Mathlib.Data.Rat.Floor
import TableStore.Proofs.DataModel
import TableStore.Proofs.Magnitude

/-!
# Truncation

A number is converted to an integer if its exact value, rounded toward zero, is in the range of
sixty-four bits, and to nothing else than that integer. The value is read off the fields of the word,
while the conversion compares numbers with the two ends of the range, as far as numbers can have them.
-/
namespace TableStore

/-- A rational number without its fraction. -/
def towardZero (q : ℚ) : ℤ := if 0 ≤ q then ⌊q⌋ else ⌈q⌉

theorem towardZero_div (a : ℤ) {d : ℕ} (hd : 0 < d) : towardZero (a / d) = a.tdiv d := by
  have hq : (0 : ℚ) < d := by exact_mod_cast hd
  have hs : (0 : ℚ) ≤ a / d ↔ 0 ≤ a := by
    rw [le_div_iff₀ hq, zero_mul, Int.cast_nonneg_iff]
  unfold towardZero
  by_cases ha : 0 ≤ a
  · rw [if_pos (hs.2 ha), Rat.floor_intCast_div_natCast, Int.tdiv_eq_ediv_of_nonneg ha]
  · rw [if_neg (mt hs.1 ha), Rat.ceil_intCast_div_natCast, ← Int.tdiv_eq_ediv_of_nonneg (by omega),
      Int.neg_tdiv, Int.neg_neg]

theorem le_towardZero_iff {n : ℤ} (hn : 0 < n) {q : ℚ} : n ≤ towardZero q ↔ (n : ℚ) ≤ q := by
  have hq : (0 : ℚ) < n := by exact_mod_cast hn
  unfold towardZero
  split
  · exact Int.le_floor
  · rename_i h
    have hc : ⌈q⌉ ≤ 0 := Int.ceil_le.2 (by exact_mod_cast (not_le.1 h).le)
    exact iff_of_false (by omega) fun hl => h (hq.le.trans hl)

theorem towardZero_sub_one_lt (q : ℚ) : (towardZero q : ℚ) - 1 < q := by
  unfold towardZero
  split
  · linarith [Int.floor_le q]
  · linarith [Int.ceil_lt_add_one q]

namespace Binary64

/-! The value of a word -/

/-- The biased exponent. -/
def exponentField (x : Binary64) : ℕ := x.bits.toNat / 2 ^ 52 % 2 ^ 11

def fractionField (x : Binary64) : ℕ := x.bits.toNat % 2 ^ 52

/-- The magnitude of a finite number, as the format has it. -/
def magnitude (x : Binary64) : ℚ :=
  if x.exponentField = 0 then (x.fractionField : ℚ) * (2 : ℚ) ^ (-1074 : ℤ)
  else (2 ^ 52 + x.fractionField : ℚ) * (2 : ℚ) ^ ((x.exponentField : ℤ) - 1075)

/-- The number that a finite word stands for. -/
def value (x : Binary64) : ℚ :=
  if x.bits.toNat / 2 ^ 63 = 0 then x.magnitude else -x.magnitude

theorem scaled_of_exponentField {x : Binary64} (h : x.exponentField = 0) :
    x.scaled = x.fractionField := by
  unfold exponentField at h
  have he : x.exponent = 0 := by
    unfold exponent code
    omega
  rw [scaled, significand, he, code, fractionField]
  omega

theorem scaled_of_exponentField_ne {x : Binary64} (h : x.exponentField ≠ 0) :
    x.scaled = (2 ^ 52 + x.fractionField) * 2 ^ (x.exponentField - 1) := by
  unfold exponentField at h ⊢
  have he : x.exponent = x.bits.toNat / 2 ^ 52 % 2 ^ 11 - 1 := by
    unfold exponent code
    omega
  have hs : x.significand = 2 ^ 52 + x.fractionField := by
    unfold significand exponent code fractionField
    omega
  rw [scaled, hs, he]

theorem magnitude_eq (x : Binary64) : x.magnitude = x.scaled / unitsInOne := by
  have hu : (unitsInOne : ℚ) = 2 ^ (1074 : ℤ) := (Nat.cast_pow 2 1074).trans (zpow_natCast 2 1074).symm
  rw [magnitude, hu, div_eq_mul_inv, ← zpow_neg]
  split
  · rename_i h
    rw [scaled_of_exponentField h]
  · rename_i h
    have he : (x.exponentField : ℤ) - 1075 = (x.exponentField - 1 : ℕ) + -1074 := by omega
    rw [scaled_of_exponentField_ne h, he, zpow_add₀ two_ne_zero, zpow_natCast]
    push_cast
    ring

/-- The value in units of `2 ^ -1074`. -/
theorem value_eq (x : Binary64) : x.value = x.signedScaled / unitsInOne := by
  have hw := x.bits.toNat_lt
  rw [value, magnitude_eq, signedScaled, isNegative]
  by_cases hn : 2 ^ 63 ≤ x.bits.toNat
  · rw [if_neg (by omega), if_pos (decide_eq_true hn)]
    push_cast
    ring
  · rw [if_pos (by omega), if_neg (by simpa using hn)]
    push_cast
    ring

theorem truncate_eq (x : Binary64) : x.truncate = towardZero x.value := by
  rw [value_eq, towardZero_div _ unitsInOne_pos, truncate_eq_tdiv]

/-- A finite number has no fraction, or is far from the ends of the range of integers. -/
theorem value_eq_truncate_or {x : Binary64} (h : x.isFinite = true) :
    x.value = x.truncate ∨ -2 ^ 53 < x.truncate := by
  rcases whole_cases h with ⟨hw, hd⟩ | ⟨-, hlt⟩
  · left
    have hs := signedScaled_whole h
    have hu : (unitsInOne : ℚ) ≠ 0 := by exact_mod_cast unitsInOne_pos.ne'
    rw [value_eq, ← hw, hs]
    push_cast
    rw [hw, mul_div_cancel_right₀ _ hu]
  · right
    rw [truncate]
    generalize x.scaled / unitsInOne = n at hlt
    split <;> simp only [Int.ofNat_eq_natCast] <;> omega

/-- No number is between the least integer and those that are out of range with it. -/
theorem truncate_lt_iff {x : Binary64} (h : x.isFinite = true) :
    x.truncate < -2 ^ 63 ↔ x.value < -2 ^ 63 := by
  rcases value_eq_truncate_or h with hv | hv
  · rw [hv]
    exact_mod_cast Iff.rfl
  · refine iff_of_false (by omega) fun hlt => ?_
    have hq := towardZero_sub_one_lt x.value
    have ht : (-2 ^ 53 : ℚ) < x.truncate := by exact_mod_cast hv
    rw [← truncate_eq] at hq
    linarith

theorem le_truncate_iff (x : Binary64) : 2 ^ 63 ≤ x.truncate ↔ 2 ^ 63 ≤ x.value := by
  rw [truncate_eq, le_towardZero_iff (by norm_num)]
  norm_num

theorem truncate_of_exponentField {x : Binary64} (h : x.exponentField = 0) : x.truncate = 0 := by
  have hf : x.fractionField < 2 ^ 52 := Nat.mod_lt _ (by decide)
  have hs : x.scaled / unitsInOne = 0 := by
    rw [scaled_of_exponentField h]
    exact Nat.div_eq_of_lt (hf.trans_le (Nat.pow_le_pow_right (by omega) (by omega)))
  rw [truncate, hs]
  split <;> rfl

theorem isFinite_of_exponentField {x : Binary64} (h : x.exponentField = 0) : x.isFinite = true := by
  unfold exponentField at h
  rw [isFinite, decide_eq_true_eq]
  unfold code infinityCode
  omega

/-! The range of integers -/

theorem signedCode_lt_of_isFinite {x : Binary64} (h : x.isFinite = true) :
    -infinityCode < x.signedCode ∧ x.signedCode < infinityCode := by
  have hc : x.code < infinityCode := of_decide_eq_true h
  unfold signedCode
  split <;> omega

/-- Between finite numbers there are only finite ones. -/
theorem isFinite_of_between {x lo hi : Binary64} (hlo : lo.isFinite = true)
    (hhi : hi.isFinite = true) (hle : lo.le x = true) (hlt : x.lt hi = true) :
    x.isFinite = true := by
  simp only [le, lt, Bool.and_eq_true, Bool.not_eq_true', decide_eq_true_eq] at hle hlt
  have hn : ¬infinityCode < x.code := of_decide_eq_false hlt.1.1
  obtain ⟨h1, -⟩ := signedCode_lt_of_isFinite hlo
  obtain ⟨-, h2⟩ := signedCode_lt_of_isFinite hhi
  have hx := h1.trans_le hle.2
  have hy := hlt.2.trans h2
  rw [isFinite, decide_eq_true_eq]
  cases hs : x.isNegative <;> simp only [signedCode, hs] at hx hy <;> omega

/-- The least integer is a number, and the largest is rounded up to the first that is out of
range. -/
theorem signedScaled_ends :
    (ofInt Int64.minValue.toInt).signedScaled = -2 ^ 63 * unitsInOne ∧
      (ofInt Int64.maxValue.toInt).signedScaled = 2 ^ 63 * unitsInOne := by
  rw [signedScaled_ofInt, signedScaled_ofInt]
  exact ⟨rfl, rfl⟩

theorem inRange_whole_iff {x : Binary64} (h : x.isFinite = true) :
    (x.whole.lt (ofInt Int64.maxValue.toInt) && (ofInt Int64.minValue.toInt).le x.whole) = true ↔
      -2 ^ 63 ≤ x.truncate ∧ x.truncate < 2 ^ 63 := by
  have hu : (0 : ℤ) < unitsInOne := by exact_mod_cast unitsInOne_pos
  obtain ⟨hlo, hhi⟩ := signedScaled_ends
  rw [Bool.and_eq_true, lt_eq_true_iff (isFinite_whole h) (isFinite_ofInt _),
    le_eq_true_iff (isFinite_ofInt _) (isFinite_whole h), hlo, hhi, signedScaled_whole h,
    Int.mul_lt_mul_right hu, Int.mul_le_mul_right hu, and_comm]

end Binary64

namespace DataType

open Binary64

theorem integerOfFloat?_of_not_isFinite {x : Binary64} (h : x.isFinite = false) :
    integerOfFloat? x = none := by
  have hw : x.whole = x := if_neg (by simp [h])
  rw [integerOfFloat?, hw, if_neg]
  rw [Bool.and_eq_true, not_and]
  intro hlt hle
  rw [isFinite_of_between (isFinite_ofInt _) (isFinite_ofInt _) hle hlt] at h
  cases h

theorem integerOfFloat?_eq_some_iff {x : Binary64} {n : Int64} :
    integerOfFloat? x = some n ↔ x.isFinite = true ∧ n.toInt = x.truncate := by
  cases h : x.isFinite with
  | false => simp [integerOfFloat?_of_not_isFinite h]
  | true =>
    have hn : x.whole.toInt64 = .ofIntClamp x.truncate := by
      rw [toInt64, isNaN_of_isFinite (isFinite_whole h), truncate_whole h]
      rfl
    dsimp only [integerOfFloat?]
    rw [hn]
    split
    · rename_i hr
      obtain ⟨hlo, hhi⟩ := (inRange_whole_iff h).1 hr
      rw [Option.some.injEq, ← Int64.toInt_inj, Int64.toInt_ofIntClamp hlo (Int.le_of_lt_add_one hhi)]
      simp [eq_comm]
    · rename_i hr
      rw [inRange_whole_iff h] at hr
      have hlo := n.le_toInt
      have hhi := n.toInt_lt
      simp only [reduceCtorEq, true_and, false_iff]
      omega

theorem exists_integerOfFloat?_iff {x : Binary64} :
    (∃ n, integerOfFloat? x = some n) ↔
      x.isFinite = true ∧ -2 ^ 63 ≤ x.truncate ∧ x.truncate < 2 ^ 63 := by
  constructor
  · rintro ⟨n, hn⟩
    obtain ⟨hx, ht⟩ := integerOfFloat?_eq_some_iff.1 hn
    exact ⟨hx, ht ▸ n.le_toInt, ht ▸ n.toInt_lt⟩
  · rintro ⟨hx, hlo, hhi⟩
    exact ⟨.ofInt x.truncate, integerOfFloat?_eq_some_iff.2 ⟨hx, Int64.toInt_ofInt_of_le hlo hhi⟩⟩

theorem convert_integer_float_eq_ok_iff {x : Binary64} {w : Value} :
    convert .integer (.float x) = .ok w ↔ ∃ n, integerOfFloat? x = some n ∧ .integer n = w :=
  convert_eq_ok_iff.trans Option.map_eq_some_iff

theorem convert_integer_float_eq_error_iff {x : Binary64} {e : Error} :
    convert .integer (.float x) = .error e ↔
      integerOfFloat? x = none ∧ e = .ofConversion (.unreadable (.float x) .integer none) :=
  convert_eq_error_iff.trans (and_congr_left fun _ => Option.map_eq_none_iff)

/-- A number is converted to the integer that is its value rounded toward zero. It is refused just
when that is out of the range of sixty-four bits: if it is not finite, or `2 ^ 63` or more, or less
than `-2 ^ 63`. Zeros and the numbers with the smallest exponent give zero. -/
theorem convert_integer_exact (x : Binary64) :
    (∀ w, convert .integer (.float x) = .ok w ↔
      x.isFinite = true ∧ ∃ n : Int64, .integer n = w ∧ n.toInt = towardZero x.value) ∧
    ((∃ w, convert .integer (.float x) = .ok w) ↔
      x.isFinite = true ∧ -2 ^ 63 ≤ towardZero x.value ∧ towardZero x.value ≤ 2 ^ 63 - 1) ∧
    (∀ e, convert .integer (.float x) = .error e ↔
      (x.isFinite = false ∨ 2 ^ 63 ≤ x.value ∨ x.value < -2 ^ 63) ∧
        e = .ofConversion (.unreadable (.float x) .integer none)) ∧
    (x.exponentField = 0 → convert .integer (.float x) = .ok (.integer 0)) := by
  simp only [convert_integer_float_eq_ok_iff, convert_integer_float_eq_error_iff,
    ← truncate_eq]
  refine ⟨fun w => ?_, ?_, fun e => ?_, fun h => ?_⟩
  · constructor
    · rintro ⟨n, hn, rfl⟩
      obtain ⟨hx, ht⟩ := integerOfFloat?_eq_some_iff.1 hn
      exact ⟨hx, n, rfl, ht⟩
    · rintro ⟨hx, n, rfl, ht⟩
      exact ⟨n, integerOfFloat?_eq_some_iff.2 ⟨hx, ht⟩, rfl⟩
  · rw [exists_comm]
    simp only [exists_and_left, exists_eq', and_true, exists_integerOfFloat?_iff]
    exact and_congr_right fun _ => and_congr_right fun _ => by omega
  · refine and_congr_left fun _ => ?_
    rw [← Option.not_isSome_iff_eq_none, Option.isSome_iff_exists, exists_integerOfFloat?_iff]
    cases hx : x.isFinite with
    | false => simp
    | true =>
      rw [← le_truncate_iff, ← truncate_lt_iff hx]
      simp only [true_and, reduceCtorEq, false_or]
      omega
  · refine ⟨0, integerOfFloat?_eq_some_iff.2 ⟨isFinite_of_exponentField h, ?_⟩, rfl⟩
    rw [truncate_of_exponentField h]
    rfl

/-- The number below zero that is nearest to it gives zero. -/
theorem convert_integer_exact_tiny :
    (Binary64.mk 0x8000000000000001).exponentField = 0 ∧
      convert .integer (.float ⟨0x8000000000000001⟩) = .ok (.integer 0) :=
  ⟨by decide, (convert_integer_exact _).2.2.2 (by decide)⟩

end DataType

end TableStore

import Mathlib.Data.Nat.Log
import TableStore.Proofs.Truncation

/-!
# Widening

An integer that is made a number and an integer again. On the way it is rounded to fifty-three bits,
which keeps the order and changes no integer by more than 512; the last 512 are rounded out of the
range.
-/
namespace TableStore

namespace Binary64

/-! Rounded quotients -/

theorem roundedQuotient_near (num : Nat) {den : Nat} (h : 0 < den) :
    2 * num ≤ 2 * (roundedQuotient num den * den) + den ∧
      2 * (roundedQuotient num den * den) ≤ 2 * num + den := by
  have hq := Nat.div_add_mod' num den
  have hr := Nat.mod_lt num h
  unfold roundedQuotient
  dsimp only
  split
  · rename_i hc
    simp only [Bool.or_eq_true, Bool.and_eq_true, decide_eq_true_eq, beq_iff_eq] at hc
    omega
  · rename_i hc
    simp only [Bool.or_eq_true, Bool.and_eq_true, decide_eq_true_eq, beq_iff_eq, not_or] at hc
    have hs : (num / den + 1) * den = num / den * den + den := Nat.succ_mul _ _
    omega

theorem roundedQuotient_mono {m n : Nat} (h : m ≤ n) (den : Nat) :
    roundedQuotient m den ≤ roundedQuotient n den := by
  rcases (Nat.div_le_div_right (c := den) h).lt_or_eq with hlt | heq
  · exact (roundedQuotient_le m den).trans (hlt.trans_le (le_roundedQuotient n den))
  · -- With equal quotients the remainders decide, and they are in order too.
    have hm := Nat.div_add_mod m den
    have hn := Nat.div_add_mod n den
    unfold roundedQuotient
    dsimp only
    rw [heq] at hm ⊢
    have hr : m % den ≤ n % den := by omega
    split
    · split <;> omega
    · rename_i hc
      rw [if_neg]
      simp only [Bool.or_eq_true, Bool.and_eq_true, decide_eq_true_eq, beq_iff_eq] at hc ⊢
      omega

/-! Rounded integers -/

theorem log2_mono {m n : Nat} (h : m ≤ n) : Nat.log2 m ≤ Nat.log2 n := by
  rw [Nat.log2_eq_log_two, Nat.log2_eq_log_two]
  exact Nat.log_mono_right h

theorem rounded_mono {m n : Nat} (h : m ≤ n) : rounded m ≤ rounded n := by
  unfold rounded
  rcases (Nat.sub_le_sub_right (log2_mono h) 52).lt_or_eq with hlt | heq
  · -- A longer number has more than the shorter one can be rounded up to.
    calc roundedQuotient m (2 ^ (Nat.log2 m - 52)) * 2 ^ (Nat.log2 m - 52)
        ≤ 2 ^ 53 * 2 ^ (Nat.log2 m - 52) := Nat.mul_le_mul_right _ (roundedQuotient_bounds m).2
      _ = 2 ^ 52 * 2 ^ (Nat.log2 m - 52 + 1) := by rw [← Nat.pow_add, ← Nat.pow_add]; congr 1; omega
      _ ≤ roundedQuotient n (2 ^ (Nat.log2 n - 52)) * 2 ^ (Nat.log2 n - 52) :=
          Nat.mul_le_mul ((roundedQuotient_bounds n).1.resolve_left (by omega))
            (Nat.pow_le_pow_right (by omega) hlt)
  · rw [heq]
    exact Nat.mul_le_mul_right _ (roundedQuotient_mono h _)

theorem rounded_near {n : Nat} (h : n < 2 ^ 63) : n ≤ rounded n + 512 ∧ rounded n ≤ n + 512 := by
  have he : Nat.log2 n - 52 ≤ 10 := by
    by_cases hn : n = 0
    · simp [hn]
    · have := (Nat.log2_lt hn).2 h
      omega
  have hu : 2 ^ (Nat.log2 n - 52) ≤ 2 ^ 10 := Nat.pow_le_pow_right (by omega) he
  obtain ⟨hlo, hhi⟩ := roundedQuotient_near n (Nat.two_pow_pos (Nat.log2 n - 52))
  unfold rounded
  omega

theorem rounded_of_le {n : Nat} (h : n ≤ 2 ^ 53) : rounded n = n := by
  rcases h.lt_or_eq with hlt | rfl
  · exact rounded_of_lt hlt
  · exact rounded_mul_two_pow_of_lt (m := 1) (by omega) 53

theorem roundedInt_mono {i j : Int} (h : i ≤ j) : roundedInt i ≤ roundedInt j := by
  unfold roundedInt
  split <;> split
  · have := rounded_mono (show j.natAbs ≤ i.natAbs by omega)
    omega
  · omega
  · omega
  · have := rounded_mono (show i.natAbs ≤ j.natAbs by omega)
    omega

theorem roundedInt_of_abs_le {i : Int} (h : |i| ≤ 2 ^ 53) : roundedInt i = i := by
  rw [abs_le] at h
  rw [roundedInt, rounded_of_le (by omega)]
  split <;> omega

theorem roundedInt_near (i : Int64) : |roundedInt i.toInt - i.toInt| ≤ 512 := by
  have hlo := i.le_toInt
  have hhi := i.toInt_lt
  rcases hlo.lt_or_eq with hlt | heq
  · have hn := rounded_near (show i.toInt.natAbs < 2 ^ 63 by omega)
    rw [abs_le, roundedInt]
    split <;> omega
  · rw [← heq]
    decide

theorem le_roundedInt (i : Int64) : -2 ^ 63 ≤ roundedInt i.toInt :=
  (show -2 ^ 63 ≤ roundedInt (-2 ^ 63) by decide).trans (roundedInt_mono i.le_toInt)

/-- Halfway between the last number that is in range and `2 ^ 63`, the latter is the even one. -/
theorem le_roundedInt_iff {i : Int} : 2 ^ 63 ≤ roundedInt i ↔ 2 ^ 63 - 512 ≤ i := by
  constructor
  · intro h
    by_contra hi
    have hm := roundedInt_mono (show i ≤ 2 ^ 63 - 513 by omega)
    have hd : roundedInt (2 ^ 63 - 513) = 2 ^ 63 - 1024 := by decide
    omega
  · intro h
    have hd : roundedInt (2 ^ 63 - 512) = 2 ^ 63 := by decide
    exact hd ▸ roundedInt_mono h

end Binary64

/-! There and back -/

namespace DataType

open Binary64

variable {i n : Int64}

theorem convert_integer_ofInt_eq_ok_iff :
    convert .integer (.float (ofInt i.toInt)) = .ok (.integer n) ↔
      n.toInt = roundedInt i.toInt := by
  rw [convert_integer_float_eq_ok_iff]
  simp [integerOfFloat?_eq_some_iff, isFinite_ofInt, truncate_ofInt]

theorem convert_integer_ofInt_eq_error_iff :
    convert .integer (.float (ofInt i.toInt)) =
        .error (.ofConversion (.unreadable (.float (ofInt i.toInt)) .integer none)) ↔
      2 ^ 63 - 512 ≤ i.toInt := by
  have hlo := le_roundedInt i
  rw [convert_integer_float_eq_error_iff, ← le_roundedInt_iff, ← Option.not_isSome_iff_eq_none,
    Option.isSome_iff_exists, exists_integerOfFloat?_iff, truncate_ofInt]
  simp only [isFinite_ofInt, hlo, true_and, and_true, not_lt]

/-- An integer is always a finite number. As an integer again it is off by no more than 512, and not
at all up to `2 ^ 53`; the last 512 integers are refused. Integers that come back are in the order of
those they come from. -/
theorem convert_widened (i : Int64) :
    ∃ x : Binary64, convert .double (.integer i) = .ok (.float x) ∧ x.isFinite = true ∧
      (i.toInt < 2 ^ 63 - 512 → ∃ n : Int64,
        convert .integer (.float x) = .ok (.integer n) ∧ |n.toInt - i.toInt| ≤ 512) ∧
      (convert .integer (.float x) =
          .error (.ofConversion (.unreadable (.float x) .integer none)) ↔
        2 ^ 63 - 512 ≤ i.toInt) ∧
      (|i.toInt| ≤ 2 ^ 53 → convert .integer (.float x) = .ok (.integer i)) ∧
      ∀ (j : Int64) (y : Binary64) (m n : Int64), i ≤ j →
        convert .double (.integer j) = .ok (.float y) →
        convert .integer (.float x) = .ok (.integer m) →
        convert .integer (.float y) = .ok (.integer n) → m ≤ n := by
  refine ⟨.ofInt i.toInt, rfl, isFinite_ofInt i, fun h => ?_, convert_integer_ofInt_eq_error_iff,
    fun h => ?_, fun j y m n hij hy hm hn => ?_⟩
  · have hlo := le_roundedInt i
    have hhi : roundedInt i.toInt < 2 ^ 63 := not_le.1 fun hle => by
      have := le_roundedInt_iff.1 hle
      omega
    refine ⟨.ofInt (roundedInt i.toInt), ?_, ?_⟩
    · rw [convert_integer_ofInt_eq_ok_iff, Int64.toInt_ofInt_of_le hlo hhi]
    · rw [Int64.toInt_ofInt_of_le hlo hhi]
      exact roundedInt_near i
  · rw [convert_integer_ofInt_eq_ok_iff, roundedInt_of_abs_le h]
  · cases hy
    rw [convert_integer_ofInt_eq_ok_iff] at hm hn
    rw [Int64.le_iff_toInt_le] at hij ⊢
    rw [hm, hn]
    exact roundedInt_mono hij

/-- One more than `2 ^ 53` is the same number, a half being rounded to the even neighbour. -/
theorem convert_widened_half :
    ∃ (x : Binary64) (n : Int64), convert .double (.integer 9007199254740992) = .ok (.float x) ∧
      convert .double (.integer 9007199254740993) = .ok (.float x) ∧
      convert .integer (.float x) = .ok (.integer 9007199254740992) ∧
      convert .integer (.float x) = .ok (.integer n) ∧ |n.toInt - 9007199254740992| ≤ 512 ∧
      9007199254740992 ≤ n := by
  obtain ⟨x, hx, -, hback, -, hsame, hmono⟩ := convert_widened 9007199254740992
  have hy : convert .double (.integer 9007199254740993) = .ok (.float x) := by
    rw [← hx]
    decide +kernel
  have hi := hsame (by decide)
  obtain ⟨n, hn, hnear⟩ := hback (by decide)
  exact ⟨x, n, hx, hy, hi, hn, hnear, hmono 9007199254740993 x _ n (by decide) hy hi hn⟩

end DataType

end TableStore

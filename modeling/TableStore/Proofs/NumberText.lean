import Mathlib.Data.List.DropRight
import Mathlib.Data.List.TakeDrop
import TableStore.Number.Shortest
import TableStore.Proofs.Rounding

/-!
# Number text

The digits that are written for a finite number read back as that number, wherever the layout puts
its point and its exponent.
-/
namespace TableStore

namespace Binary64

open Decimal

theorem nearestCode_exact (n k : Nat) :
    nearestCode (n * 5 ^ k * 2 ^ k) (10 ^ k) = nearestCode n 1 := by
  rw [Nat.mul_assoc, ← Nat.mul_pow, ← nearestCode_mul_right n 1 (k := 10 ^ k) (Nat.pow_pos (by omega)),
    Nat.one_mul]

theorem toBinary64_exactDecimal {x : Binary64} (h : x.isFinite = true) :
    x.exactDecimal.toBinary64 = x := by
  have hc : nearestCode (x.scaled * 5 ^ 1074 * 2 ^ 1074) (10 ^ 1074) = x.code := by
    rw [nearestCode_exact, nearestCode_scaled h]
  calc x.exactDecimal.toBinary64 = ofRatio x.isNegative (x.scaled * 5 ^ 1074) (10 ^ 1074) :=
        toBinary64_negSucc _ _ 1073
    _ = ofCode x.isNegative x.code := congrArg (ofCode x.isNegative) hc
    _ = x := ofCode_code x

theorem candidate?_eq_some {tieGoesDown : Nat → Bool} {x : Binary64} {power : Int} {d : Decimal}
    (h : candidate? tieGoesDown x power = some d) :
    d.toBinary64 = x ∧ d.negative = x.isNegative := by
  have hx := List.find?_some h
  obtain ⟨n, -, rfl⟩ := List.mem_map.1 (List.mem_of_find?_eq_some h)
  exact ⟨by simpa using hx, rfl⟩

/-- The digits that are chosen read back. -/
theorem shortest_spec (tieGoesDown : Nat → Bool) {x : Binary64} (h : x.isFinite = true) :
    (x.shortest tieGoesDown).toBinary64 = x ∧ (x.shortest tieGoesDown).negative = x.isNegative := by
  unfold shortest
  dsimp only
  cases hs : (List.range 17).findSome? fun k =>
      candidate? tieGoesDown x (decade x.scaled unitsInOne - Int.ofNat k) with
  | none => exact ⟨toBinary64_exactDecimal h, rfl⟩
  | some d =>
    obtain ⟨k, -, hk⟩ := List.exists_of_findSome?_eq_some hs
    exact candidate?_eq_some hk

theorem scaled_eq_zero_iff {x : Binary64} : x.scaled = 0 ↔ x.code = 0 := by
  refine ⟨fun h => ?_, fun h => by simp [scaled, significand, exponent, h]⟩
  have hs : x.significand = 0 :=
    (Nat.mul_eq_zero.1 h).resolve_right (Nat.two_pow_pos x.exponent).ne'
  unfold significand exponent at hs
  omega

theorem zero_of_scaled {x : Binary64} (h : x.scaled = 0) : zero x.isNegative = x := by
  rw [zero, ← scaled_eq_zero_iff.1 h, ofCode_code]

theorem digits_shortest_ne_zero (tieGoesDown : Nat → Bool) {x : Binary64} (h : x.isFinite = true)
    (hx : x.scaled ≠ 0) : (x.shortest tieGoesDown).digits ≠ 0 := by
  intro hd
  have hs := (shortest_spec tieGoesDown h).1
  rw [toBinary64, if_pos hd] at hs
  apply hx
  rw [← hs]
  simp [scaled, significand, exponent, zero, code_ofCode _ (show 0 < 2 ^ 63 by decide)]

end Binary64

namespace NumberLayout

open Decimal

/-- Digits of a number above zero, without a zero in front. -/
structure Leading (ds : List Char) : Prop where
  digits : ∀ c ∈ ds, c.isDigit = true
  ne_nil : ds ≠ []
  head : ds.head? ≠ some '0'

theorem isDigit_of_mem_toDigits {n : Nat} {c : Char} (h : c ∈ Nat.toDigits 10 n) :
    c.isDigit = true :=
  Nat.isDigit_of_mem_toDigits (by omega) (by omega) h

theorem leading_toDigits {n : Nat} (h : n ≠ 0) : Leading (Nat.toDigits 10 n) := by
  refine ⟨fun c => isDigit_of_mem_toDigits, Nat.toDigits_ne_nil, ?_⟩
  induction n using Nat.strongRecOn with
  | ind n ih =>
    rw [Nat.toDigits_eq_if (by omega)]
    split
    · rename_i hn
      have : ∀ m : Nat, m < 10 → m ≠ 0 → [m.digitChar].head? ≠ some '0' := by decide
      exact this n hn h
    · have := ih (n / 10) (by omega) (by omega)
      rwa [List.head?_append_of_ne_nil _ Nat.toDigits_ne_nil]

/-- The significant digits, and the zeros that are left out after them. -/
theorem significant_spec {d : Decimal} (hd : d.digits ≠ 0) :
    ∃ ds z, significant d = (ds, d.power + (z : Nat) + ds.length - 1) ∧ Leading ds ∧
      d.digits = natOfDigits ds * 10 ^ z := by
  have hl := leading_toDigits hd
  have hsplit : (Nat.toDigits 10 d.digits).rdropWhile (· == '0') ++
      (Nat.toDigits 10 d.digits).rtakeWhile (· == '0') = Nat.toDigits 10 d.digits :=
    List.rdropWhile_append_rtakeWhile
  have hzeros : (Nat.toDigits 10 d.digits).rtakeWhile (· == '0') =
      List.replicate ((Nat.toDigits 10 d.digits).rtakeWhile (· == '0')).length '0' :=
    List.eq_replicate_of_mem fun c hc => by simpa using List.mem_rtakeWhile_imp hc
  unfold significant
  generalize (Nat.toDigits 10 d.digits).rtakeWhile (· == '0') = zs at hsplit hzeros
  change ∃ ds z, ((Nat.toDigits 10 d.digits).rdropWhile (· == '0'), _) = _ ∧ _ ∧ _
  generalize (Nat.toDigits 10 d.digits).rdropWhile (· == '0') = ds at hsplit
  generalize zs.length = z at hzeros
  subst hzeros
  have hne : ds ≠ [] := by
    rintro rfl
    cases z with
    | zero => exact hl.ne_nil hsplit.symm
    | succ z => exact hl.head (by rw [← hsplit]; rfl)
  refine ⟨ds, z, ?_, ⟨fun c hc => hl.digits c ?_, hne, ?_⟩, ?_⟩
  · rw [← hsplit]
    simp only [List.length_append, List.length_replicate, Int.ofNat_eq_natCast, Nat.cast_add,
      Prod.mk.injEq, true_and]
    omega
  · rw [← hsplit]
    exact List.mem_append_left _ hc
  · have := hl.head
    rwa [← hsplit, List.head?_append_of_ne_nil _ hne] at this
  · rw [← Nat.ofDigitChars_ten_toDigits (n := d.digits), ← hsplit, Nat.ofDigitChars_append,
      Nat.ofDigitChars_replicate_zero, Nat.mul_comm]
    rfl

/-- Digits are read up to the first character that is none. -/
theorem span_digits {ds rest : List Char} (hd : ∀ c ∈ ds, c.isDigit = true)
    (hr : ∀ c ∈ rest.head?, c.isDigit = false) :
    (ds ++ rest).span Char.isDigit = (ds, rest) := by
  rw [List.span_eq_takeWhile_dropWhile, List.takeWhile_append_of_pos hd,
    List.dropWhile_append_of_pos hd]
  cases rest with
  | nil => simp
  | cons c cs => simp [hr c rfl]

theorem readUnsigned_fraction (magnitude : List Char → Nat) (negative : Bool)
    {w f t : List Char} (hw : ∀ c ∈ w, c.isDigit = true)
    (hf : ∀ c ∈ f, c.isDigit = true) (ht : ∀ c ∈ t.head?, c.isDigit = false)
    (hne : w ≠ []) :
    readUnsigned magnitude negative (w ++ '.' :: (f ++ t)) =
      (readExponent magnitude t).map fun e =>
        ⟨negative, natOfDigits (w ++ f), e - Int.ofNat f.length⟩ := by
  unfold readUnsigned
  rw [span_digits hw (by simp)]
  simp only [takeFraction, span_digits hf ht]
  simp [hne]

theorem readUnsigned_whole (magnitude : List Char → Nat) (negative : Bool)
    {w t : List Char} (hw : ∀ c ∈ w, c.isDigit = true) (hne : w ≠ [])
    (ht : ∀ c ∈ t.head?, c.isDigit = false ∧ c ≠ '.') :
    readUnsigned magnitude negative (w ++ t) =
      (readExponent magnitude t).map fun e => ⟨negative, natOfDigits w, e⟩ := by
  unfold readUnsigned
  rw [span_digits hw fun c hc => (ht c hc).1]
  have hf : takeFraction t = ([], t) := by
    cases t with
    | nil => rfl
    | cons c cs =>
      have hc := (ht c rfl).2
      unfold takeFraction
      split
      · rename_i h
        exact absurd (List.cons.inj h).1 hc
      · rfl
  simp [hf, hne]

theorem natOfDigits_append_zeros (ds : List Char) (n : Nat) :
    natOfDigits (ds ++ zeros n) = natOfDigits ds * 10 ^ n := by
  rw [natOfDigits, Nat.ofDigitChars_append, zeros, Nat.ofDigitChars_replicate_zero, Nat.mul_comm]
  rfl

theorem natOfDigits_zeros_append (ds : List Char) (n : Nat) :
    natOfDigits (zeros n ++ ds) = natOfDigits ds := by
  rw [natOfDigits, Nat.ofDigitChars_append, zeros, Nat.ofDigitChars_replicate_zero, Nat.mul_zero]
  rfl

theorem isDigit_of_mem_zeros {n : Nat} {c : Char} (h : c ∈ zeros n) : c.isDigit = true := by
  rw [List.eq_of_mem_replicate h]
  rfl

theorem readUnsigned_point (magnitude : List Char → Nat) (negative : Bool)
    {w f : List Char} (hw : ∀ c ∈ w, c.isDigit = true)
    (hf : ∀ c ∈ f, c.isDigit = true) (hne : w ≠ []) :
    readUnsigned magnitude negative (w ++ '.' :: f) =
      some ⟨negative, natOfDigits (w ++ f), -f.length⟩ := by
  have h := readUnsigned_fraction magnitude negative (t := []) hw hf (by simp) hne
  rw [List.append_nil] at h
  simp [h, readExponent]

/-- Digits laid out without an exponent are read with their value. -/
theorem readUnsigned_plain (magnitude : List Char → Nat) (negative : Bool) {ds : List Char}
    (h : Leading ds) (p : Int) :
    ∃ d, readUnsigned magnitude negative (plain ds p) = some d ∧
      d.toBinary64 = toBinary64 ⟨negative, natOfDigits ds, p + 1 - ds.length⟩ := by
  cases p with
  | negSucc k =>
    have hf : ∀ c ∈ zeros k ++ ds, c.isDigit = true := by
      intro c hc
      exact (List.mem_append.1 hc).elim isDigit_of_mem_zeros (h.digits c)
    refine ⟨_, readUnsigned_point magnitude negative (w := zeros 1) (by simp [zeros]) hf
      (by simp [zeros]), ?_⟩
    have hp : -((zeros k ++ ds).length : Int) = Int.negSucc k + 1 - ds.length := by
      rw [List.length_append, zeros, List.length_replicate]
      omega
    rw [hp, natOfDigits_zeros_append, natOfDigits_zeros_append]
  | ofNat k =>
    by_cases hk : ds.length ≤ k + 1
    · have hpl : plain ds (.ofNat k) = ds ++ zeros (k + 1 - ds.length) ++ '.' :: zeros 1 := if_pos hk
      have hw : ∀ c ∈ ds ++ zeros (k + 1 - ds.length), c.isDigit = true := by
        intro c hc
        exact (List.mem_append.1 hc).elim (h.digits c) isDigit_of_mem_zeros
      rw [hpl]
      refine ⟨_, readUnsigned_point magnitude negative hw (by simp [zeros]) (by simp [h.ne_nil]), ?_⟩
      have hp : -((zeros 1).length : Int) + ((k + 1 - ds.length + 1 : Nat) : Int) =
          Int.ofNat k + 1 - ds.length := by
        rw [zeros, List.length_replicate, Int.ofNat_eq_natCast]
        omega
      rw [natOfDigits_append_zeros, natOfDigits_append_zeros, Nat.mul_assoc, ← Nat.pow_add,
        toBinary64_mul_pow, hp]
    · have hpl : plain ds (.ofNat k) = ds.take (k + 1) ++ '.' :: ds.drop (k + 1) := if_neg hk
      have hne : ds.take (k + 1) ≠ [] := by
        rw [ne_eq, List.take_eq_nil_iff]
        exact fun hn => hn.elim (by omega) h.ne_nil
      have hp : -((ds.drop (k + 1)).length : Int) = Int.ofNat k + 1 - ds.length := by
        rw [List.length_drop, Int.ofNat_eq_natCast]
        omega
      rw [hpl]
      refine ⟨_, readUnsigned_point magnitude negative
        (fun c hc => h.digits c (List.mem_of_mem_take hc))
        (fun c hc => h.digits c (List.mem_of_mem_drop hc)) hne, ?_⟩
      rw [hp, List.take_append_drop]

theorem takeSign_of_isDigit {ds : List Char} (hd : ∀ c ∈ ds.head?, c.isDigit = true) :
    takeSign ds = (false, ds) := by
  unfold takeSign
  split
  · exact absurd (hd '-' rfl) (by decide)
  · exact absurd (hd '+' rfl) (by decide)
  · rfl

theorem takeSign_toDigits (n : Nat) : takeSign (Nat.toDigits 10 n) = (false, Nat.toDigits 10 n) :=
  takeSign_of_isDigit fun _ hc => isDigit_of_mem_toDigits (List.mem_of_mem_head? hc)

/-- The exponent is read as it is written, whatever mark stands before it. -/
theorem readExponent_written {magnitude : List Char → Nat} {plus : String}
    (hplus : plus = "" ∨ plus = "+") {p : Int}
    (hm : magnitude (Nat.toDigits 10 p.natAbs) = p.natAbs) :
    readExponent magnitude
      ('e' :: ((if p < 0 then ['-'] else plus.toList) ++ Nat.toDigits 10 p.natAbs)) = some p := by
  have hd : (!(Nat.toDigits 10 p.natAbs).isEmpty && (Nat.toDigits 10 p.natAbs).all Char.isDigit) =
      true := by
    simpa [Nat.toDigits_ne_nil] using fun c => isDigit_of_mem_toDigits
  have hs : takeSign ((if p < 0 then ['-'] else plus.toList) ++ Nat.toDigits 10 p.natAbs) =
      (decide (p < 0), Nat.toDigits 10 p.natAbs) := by
    by_cases hp : p < 0
    · simp [hp, takeSign]
    · rcases hplus with rfl | rfl
      · simpa [hp] using takeSign_toDigits p.natAbs
      · simp [hp, takeSign]
  unfold readExponent
  simp only [hs, hd, true_or, if_true, hm, decide_eq_true_eq, Int.ofNat_eq_natCast]
  split <;> exact congrArg some (by omega)

/-- Digits laid out with an exponent are read with their value. -/
theorem readUnsigned_withExponent {magnitude : List Char → Nat} (negative : Bool) {plus : String}
    (hplus : plus = "" ∨ plus = "+") {ds : List Char} (h : Leading ds) {p : Int}
    (hm : magnitude (Nat.toDigits 10 p.natAbs) = p.natAbs) :
    readUnsigned magnitude negative (withExponent plus ds p) =
      some ⟨negative, natOfDigits ds, p + 1 - ds.length⟩ := by
  have he := readExponent_written hplus hm
  obtain ⟨c, cs, rfl⟩ := List.exists_cons_of_ne_nil h.ne_nil
  cases cs with
  | nil =>
    have hr := readUnsigned_whole magnitude negative (w := [c])
      (t := 'e' :: ((if p < 0 then ['-'] else plus.toList) ++ Nat.toDigits 10 p.natAbs))
      h.digits (by simp) (by simp)
    rw [he] at hr
    simpa [withExponent] using hr
  | cons c' cs =>
    have hr := readUnsigned_fraction magnitude negative (w := [c]) (f := c' :: cs)
      (t := 'e' :: ((if p < 0 then ['-'] else plus.toList) ++ Nat.toDigits 10 p.natAbs))
      (fun x hx => h.digits x (by simp_all)) (fun x hx => h.digits x (by simp_all)) (by simp) (by simp)
    rw [he] at hr
    have hp : p - Int.ofNat (c' :: cs).length = p + 1 - (c :: c' :: cs).length := by
      simp only [List.length_cons, Int.ofNat_eq_natCast]
      omega
    rw [Option.map_some, hp] at hr
    simpa [withExponent] using hr

/-- The digits that are kept mean the same number, the zeros after them being in the power. -/
theorem toBinary64_kept {d : Decimal} {negative : Bool} {ds : List Char} {z : Nat}
    (hn : d.negative = negative) (hd : d.digits = natOfDigits ds * 10 ^ z) :
    toBinary64 ⟨negative, natOfDigits ds, d.power + z⟩ = d.toBinary64 := by
  obtain ⟨n, k, p⟩ := d
  simp only at hn hd
  subst hn hd
  exact (toBinary64_mul_pow n _ z p).symm

theorem readUnsigned_layOut (l : NumberLayout) (hplus : l.exponentPlus = "" ∨ l.exponentPlus = "+")
    {magnitude : List Char → Nat} (negative : Bool) {ds : List Char} (h : Leading ds) {p : Int}
    (hm : magnitude (Nat.toDigits 10 p.natAbs) = p.natAbs) :
    ∃ d, readUnsigned magnitude negative (l.layOut ds p) = some d ∧
      d.toBinary64 = toBinary64 ⟨negative, natOfDigits ds, p + 1 - ds.length⟩ := by
  unfold layOut
  split
  · exact readUnsigned_plain magnitude negative h p
  · exact ⟨_, readUnsigned_withExponent negative hplus h hm, rfl⟩

/-- A number other than zero is written as digits without zeros around them. -/
theorem writeUnsigned_eq (l : NumberLayout) {x : Binary64} (h : x.isFinite = true)
    (hx : x.scaled ≠ 0) :
    ∃ ds p, l.writeUnsigned x = l.layOut ds p ∧ Leading ds ∧
      toBinary64 ⟨x.isNegative, natOfDigits ds, p + 1 - ds.length⟩ = x := by
  obtain ⟨hs, hn⟩ := Binary64.shortest_spec l.tieGoesDown h
  obtain ⟨ds, z, hsig, hl, hd⟩ :=
    significant_spec (Binary64.digits_shortest_ne_zero l.tieGoesDown h hx)
  refine ⟨ds, (x.shortest l.tieGoesDown).power + z + ds.length - 1, ?_, hl, ?_⟩
  · rw [writeUnsigned, if_neg hx, hsig]
  · rw [show ∀ p n : Int, p + n - 1 + 1 - n = p by omega, toBinary64_kept hn hd, hs]

/-- What is written for a finite number is read as that number. -/
theorem readUnsigned_writeUnsigned (l : NumberLayout)
    (hplus : l.exponentPlus = "" ∨ l.exponentPlus = "+") {x : Binary64} (h : x.isFinite = true) :
    ∃ d, readUnsigned natOfDigits x.isNegative (l.writeUnsigned x) = some d ∧
      d.toBinary64 = x := by
  by_cases hx : x.scaled = 0
  · refine ⟨⟨x.isNegative, 0, -1⟩, ?_, ?_⟩
    · rw [writeUnsigned, if_pos hx]
      rfl
    · rw [toBinary64, if_pos rfl, Binary64.zero_of_scaled hx]
  · obtain ⟨ds, p, hw, hl, hv⟩ := writeUnsigned_eq l h hx
    obtain ⟨d, hr, hd⟩ := readUnsigned_layOut l hplus x.isNegative hl (p := p)
      Nat.ofDigitChars_ten_toDigits
    rw [hw]
    exact ⟨d, hr, hd.trans hv⟩

end NumberLayout

end TableStore

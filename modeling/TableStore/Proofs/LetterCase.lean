import Mathlib.Data.Char
import Mathlib.Tactic.SplitIfs
import TableStore.Text.Blank
import TableStore.Text.Letter

/-!
# Letters of ASCII

Texts that are equal when the case of ASCII letters is ignored have the same capital form and the
same small form, whatever other letters are in them.
-/
namespace TableStore.Text

theorem isUpper_iff {c : Char} : c.isUpper = true ↔ 65 ≤ c.toNat ∧ c.toNat ≤ 90 := by
  unfold Char.isUpper
  simp [UInt32.le_iff_toNat_le]

theorem isLower_iff {c : Char} : c.isLower = true ↔ 97 ≤ c.toNat ∧ c.toNat ≤ 122 := by
  unfold Char.isLower
  simp [UInt32.le_iff_toNat_le]

theorem isAlpha_iff {c : Char} :
    c.isAlpha = true ↔ (65 ≤ c.toNat ∧ c.toNat ≤ 90) ∨ (97 ≤ c.toNat ∧ c.toNat ≤ 122) := by
  unfold Char.isAlpha
  rw [Bool.or_eq_true, isUpper_iff, isLower_iff]

theorem toNat_toLower (c : Char) :
    c.toLower.toNat = if 65 ≤ c.toNat ∧ c.toNat ≤ 90 then c.toNat + 32 else c.toNat := by
  unfold Char.toLower
  split
  · rename_i h
    have hc : 65 ≤ c.toNat ∧ c.toNat ≤ 90 := by simpa [UInt32.le_iff_toNat_le] using h
    have hd : ('a'.val - 'A'.val).toNat = 32 := rfl
    rw [if_pos hc, ← Char.toNat_val, UInt32.toNat_add, hd, Char.toNat_val]
    omega
  · rename_i h
    have hc : ¬(65 ≤ c.toNat ∧ c.toNat ≤ 90) := by simpa [UInt32.le_iff_toNat_le] using h
    rw [if_neg hc]

theorem toNat_toUpper (c : Char) :
    c.toUpper.toNat = if 97 ≤ c.toNat ∧ c.toNat ≤ 122 then c.toNat - 32 else c.toNat := by
  unfold Char.toUpper
  split
  · rename_i h
    have hc : 97 ≤ c.toNat ∧ c.toNat ≤ 122 := by simpa [UInt32.le_iff_toNat_le] using h
    have hd : ('A'.val - 'a'.val).toNat = 2 ^ 32 - 32 := rfl
    rw [if_pos hc, ← Char.toNat_val, UInt32.toNat_add, hd, Char.toNat_val]
    omega
  · rename_i h
    have hc : ¬(97 ≤ c.toNat ∧ c.toNat ≤ 122) := by simpa [UInt32.le_iff_toNat_le] using h
    rw [if_neg hc]

theorem toLower_of_isUpper {c d : Char} (hd : d.isUpper = true) (h : c.toLower = d.toLower) :
    c.isAlpha = true ∧ c.toUpper = d := by
  have hn := congrArg Char.toNat h
  rw [isUpper_iff] at hd
  rw [toNat_toLower, toNat_toLower, if_pos hd] at hn
  rw [isAlpha_iff, ← Char.toNat_inj, toNat_toUpper]
  split at hn <;> split <;> omega

theorem isAscii_of_isAlpha {c : Char} (h : c.isAlpha = true) : isAscii c = true := by
  rw [isAlpha_iff] at h
  rw [isAscii, decide_eq_true_eq]
  omega

theorem upperChar_of_isAlpha {c : Char} (h : c.isAlpha = true) : upperChar c = [c.toUpper] :=
  if_pos (isAscii_of_isAlpha h)

/-- Against a text of capitals, the case of letters is all that can differ. -/
theorem flatMap_upperChar_of_map_toLower {w s : List Char} (hs : ∀ c ∈ s, c.isUpper = true)
    (h : w.map Char.toLower = s.map Char.toLower) :
    (∀ c ∈ w, c.isAlpha = true) ∧ w.flatMap upperChar = s := by
  induction s generalizing w with
  | nil => simp_all
  | cons d s ih =>
    cases w with
    | nil => cases h
    | cons c w =>
      rw [List.forall_mem_cons] at hs
      rw [List.map_cons, List.map_cons, List.cons.injEq] at h
      obtain ⟨ha, hu⟩ := toLower_of_isUpper hs.1 h.1
      obtain ⟨hw, he⟩ := ih hs.2 h.2
      refine ⟨List.forall_mem_cons.2 ⟨ha, hw⟩, ?_⟩
      rw [List.flatMap_cons, upperChar_of_isAlpha ha, he, hu, List.singleton_append]

theorem upper_of_sameAsciiLetters {w s : String} (hs : s.toList.all Char.isUpper = true)
    (h : sameAsciiLetters w s = true) : (∀ c ∈ w.toList, c.isAlpha = true) ∧ upper w = s := by
  obtain ⟨ha, hu⟩ :=
    flatMap_upperChar_of_map_toLower (List.all_eq_true.1 hs) (eq_of_beq h)
  exact ⟨ha, by rw [upper, hu, String.ofList_toList]⟩

/-! Texts with their ASCII letters made small -/

/-- The texts are the same but for the case of ASCII letters. -/
def SameLetters (s t : String) : Prop := s.toList.map Char.toLower = t.toList.map Char.toLower

instance (s t : String) : Decidable (SameLetters s t) := inferInstanceAs (Decidable (_ = _))

theorem sameAsciiLetters_iff {s t : String} : sameAsciiLetters s t = true ↔ SameLetters s t :=
  beq_iff_eq

theorem toLower_cases (c : Char) :
    c.toLower = c ∨ c.isAlpha = true ∧ c.toLower.isAlpha = true := by
  rw [isAlpha_iff, isAlpha_iff, ← Char.toNat_inj, toNat_toLower]
  split <;> omega

/-- What is the same for all letters does not tell a letter from its small form. -/
theorem apply_toLower {β : Type} {f : Char → β} {x : β} (hf : ∀ c, c.isAlpha = true → f c = x)
    (c : Char) : f c.toLower = f c := by
  rcases toLower_cases c with h | ⟨hc, hl⟩
  · rw [h]
  · rw [hf _ hl, hf _ hc]

theorem isBlank_of_isAlpha {c : Char} (h : c.isAlpha = true) : isBlank c = false := by
  rw [isAlpha_iff] at h
  simp only [isBlank, Bool.or_eq_false_iff, Bool.and_eq_false_iff, decide_eq_false_iff_not,
    beq_eq_false_iff_ne]
  omega

theorem isBlank_toLower (c : Char) : isBlank c.toLower = isBlank c :=
  apply_toLower (fun _ => isBlank_of_isAlpha) c

theorem isCased_toLower (c : Char) : isCased c.toLower = isCased c := by
  refine apply_toLower (x := true) (fun d hd => ?_) c
  rw [isCased, if_pos (isAscii_of_isAlpha hd), hd]

theorem isCaseIgnorable_toLower (c : Char) : isCaseIgnorable c.toLower = isCaseIgnorable c := by
  refine apply_toLower (x := false) (fun d hd => ?_) c
  rw [isCaseIgnorable, if_pos (isAscii_of_isAlpha hd)]
  simp only [Bool.or_eq_false_iff, beq_eq_false_iff_ne]
  refine ⟨⟨⟨⟨?_, ?_⟩, ?_⟩, ?_⟩, ?_⟩ <;> rintro rfl <;> cases hd

theorem upperChar_toLower (c : Char) : upperChar c.toLower = upperChar c := by
  rcases toLower_cases c with h | ⟨hc, hl⟩
  · rw [h]
  · rw [upperChar_of_isAlpha hl, upperChar_of_isAlpha hc]
    rw [isAlpha_iff] at hc
    rw [List.singleton_inj, ← Char.toNat_inj, toNat_toUpper, toNat_toUpper, toNat_toLower]
    split_ifs <;> omega

theorem lowerChar_toLower (c : Char) : lowerChar c.toLower = lowerChar c := by
  rcases toLower_cases c with h | ⟨hc, hl⟩
  · rw [h]
  · rw [lowerChar, if_pos (isAscii_of_isAlpha hl), lowerChar, if_pos (isAscii_of_isAlpha hc)]
    rw [List.singleton_inj, ← Char.toNat_inj, toNat_toLower, toNat_toLower]
    split_ifs <;> omega

theorem meetsLetter_map (cs : List Char) : meetsLetter (cs.map Char.toLower) = meetsLetter cs := by
  have hp : isCaseIgnorable ∘ Char.toLower = isCaseIgnorable := funext isCaseIgnorable_toLower
  unfold meetsLetter
  rw [List.dropWhile_map, hp]
  cases cs.dropWhile isCaseIgnorable with
  | nil => rfl
  | cons c cs => exact isCased_toLower c

/-- A letter is none that the small form of a sigma depends on by its case. -/
theorem lowerAfter_map (before cs : List Char) :
    lowerAfter (before.map Char.toLower) (cs.map Char.toLower) = lowerAfter before cs := by
  induction cs generalizing before with
  | nil => rfl
  | cons c cs ih =>
    have hs : decide (c.toLower = 'Σ') = decide (c = 'Σ') := by
      refine apply_toLower (f := fun d => decide (d = 'Σ')) (x := false) (fun d hd => ?_) c
      rw [decide_eq_false_iff_not]
      rintro rfl
      cases hd
    have hif : (c.toLower = 'Σ') = (c = 'Σ') := propext (decide_eq_decide.1 hs)
    rw [List.map_cons, lowerAfter, lowerAfter, isFinalSigma, isFinalSigma, meetsLetter_map,
      meetsLetter_map, lowerChar_toLower, ← List.map_cons, ih]
    simp only [hif]

namespace SameLetters

variable {s t : String}

theorem upper_eq (h : SameLetters s t) : upper s = upper t := by
  have hm : ∀ cs : List Char, cs.flatMap upperChar = (cs.map Char.toLower).flatMap upperChar := by
    intro cs
    rw [List.flatMap_map]
    simp only [upperChar_toLower]
  rw [upper, upper, hm, h, ← hm]

/-- Although the small form of a letter may depend on the letters beside it. -/
theorem lower_eq (h : SameLetters s t) : lower s = lower t := by
  rw [lower, lower, ← lowerAfter_map, h, lowerAfter_map]

end SameLetters

end TableStore.Text

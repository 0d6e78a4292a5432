import Mathlib.Tactic.ByContra
import Mathlib.Tactic.SplitIfs
import TableStore.NameMap
import TableStore.Text.Content

/-!
# Bytes of texts

The bytes of a text are those of its characters, one after another. They order texts as the
characters do. A line feed and a carriage return are a byte each that is in no other character, so
a text falls into the same lines by its bytes as by its characters.
-/
namespace TableStore

namespace Text

def bytes (s : String) : List UInt8 := s.toUTF8.toList

theorem toList_loop (b : ByteArray) (i : Nat) (acc : List UInt8) :
    ByteArray.toList.loop b i acc = acc.reverse ++ b.data.toList.drop i := by
  fun_induction ByteArray.toList.loop b i acc with
  | case1 i acc h ih =>
    have hi : i < b.data.toList.length := h
    rw [ih, List.reverse_cons, List.append_assoc, List.drop_eq_getElem_cons hi]
    simp [ByteArray.get!, h]
  | case2 i acc h =>
    have hi : b.data.toList.length ≤ i := Nat.le_of_not_lt h
    rw [List.drop_eq_nil_of_le hi, List.append_nil]

theorem toList_eq_data_toList (b : ByteArray) : b.toList = b.data.toList := by
  rw [ByteArray.toList, toList_loop, List.reverse_nil, List.nil_append, List.drop_zero]

theorem bytes_eq (s : String) : bytes s = s.toList.flatMap String.utf8EncodeChar := by
  have h := String.utf8Encode_toList (b := s)
  rw [bytes, String.toUTF8_eq_toByteArray, ← h, toList_eq_data_toList, List.utf8Encode,
    List.toList_data_toByteArray]

/-! The order of texts -/

/-- The bytes of a character are less than those of a later one, whatever follows. -/
theorem utf8EncodeChar_lt {c d : Char} (h : c < d) (xs ys : List UInt8) :
    String.utf8EncodeChar c ++ xs < String.utf8EncodeChar d ++ ys := by
  have hd : d.val.toNat < 1114112 := by
    have := d.valid
    simp only [UInt32.isValidChar, Nat.isValidChar] at this
    omega
  have hv : c.val.toNat < d.val.toNat := h
  unfold String.utf8EncodeChar
  generalize c.val.toNat = v at hv
  generalize d.val.toNat = w at hv hd
  dsimp only
  -- a longer character begins with a greater byte, and else the digits of the numbers decide
  split_ifs <;>
    simp (disch := omega) only [List.cons_append, List.nil_append, List.cons_lt_cons_iff,
      UInt8.lt_iff_toNat_lt, ← UInt8.toNat_inj, UInt8.toNat_ofNat', Nat.mod_eq_of_lt] <;>
    omega

theorem flatMap_lt_flatMap {cs ds : List Char} (h : cs < ds) :
    cs.flatMap String.utf8EncodeChar < ds.flatMap String.utf8EncodeChar := by
  induction h with
  | nil =>
    rename_i d ds
    rw [List.flatMap_nil, List.flatMap_cons]
    cases hd : String.utf8EncodeChar d with
    | nil => cases String.utf8EncodeChar_ne_nil hd
    | cons b bs => exact .nil
  | rel h => exact utf8EncodeChar_lt h _ _
  | cons _ ih =>
    rw [List.flatMap_cons, List.flatMap_cons]
    exact List.append_left_lt ih

/-- The bytes are ordered as the texts. -/
theorem bytes_lt_bytes_iff {a b : String} : bytes a < bytes b ↔ a < b := by
  rw [bytes_eq, bytes_eq]
  constructor
  · intro h
    by_contra hlt
    by_cases hab : a = b
    · subst hab
      exact List.lt_irrefl _ h
    · exact List.lt_asymm h (flatMap_lt_flatMap (NameMap.lt_of_not_lt_of_ne hlt hab))
  · exact flatMap_lt_flatMap

end Text

/-! Lines -/

namespace Content

variable {α β : Type} [BEq α] [LawfulBEq α] [BEq β] [LawfulBEq β] {f : α → List β} {x r : α}
  {y s : β}

/-- The code of this letter is one sign, which no other letter has in its code. -/
structure Marks (f : α → List β) (x : α) (y : β) : Prop where
  eq : f x = [y]
  not_mem : ∀ c, c ≠ x → y ∉ f c

theorem splitOn_append_of_not_mem {ys : List β} (h : y ∉ ys) (rest : List β) :
    (ys ++ rest).splitOn y = (rest.splitOn y).modifyHead (ys ++ ·) := by
  induction ys with
  | nil =>
    rw [List.nil_append]
    cases rest.splitOn y <;> rfl
  | cons b bs ih =>
    have hb : (b == y) = false := beq_eq_false_iff_ne.2 fun he => h (he ▸ List.mem_cons_self)
    rw [List.cons_append, List.splitOn_cons_eq_if_modifyHead, hb,
      ih fun hm => h (List.mem_cons_of_mem _ hm)]
    cases rest.splitOn y <;> rfl

theorem splitOn_flatMap (h : Marks f x y) (xs : List α) :
    (xs.flatMap f).splitOn y = (xs.splitOn x).map (List.flatMap f) := by
  induction xs with
  | nil =>
    rw [List.flatMap_nil, List.splitOn_nil, List.splitOn_nil, List.map_singleton, List.flatMap_nil]
  | cons c cs ih =>
    rw [List.flatMap_cons, List.splitOn_cons_eq_if_modifyHead]
    by_cases hc : c = x
    · subst hc
      rw [h.eq, List.singleton_append, List.splitOn_cons_eq_if_modifyHead,
        if_pos (beq_self_eq_true _), if_pos (beq_self_eq_true _), ih]
      rfl
    · rw [splitOn_append_of_not_mem (h.not_mem c hc), ih, if_neg (by simpa using hc)]
      cases cs.splitOn x <;> rfl

theorem dropLastIf_flatMap (h : Marks f r s) (hf : ∀ c, f c ≠ []) (xs : List α) :
    dropLastIf s (xs.flatMap f) = (dropLastIf r xs).flatMap f := by
  unfold dropLastIf
  rcases List.eq_nil_or_concat xs with rfl | ⟨cs, c, rfl⟩
  · rfl
  · rw [List.concat_eq_append, List.flatMap_append, List.flatMap_singleton, List.getLast?_concat]
    by_cases hc : c = r
    · subst hc
      rw [h.eq, List.getLast?_concat, List.dropLast_concat, List.dropLast_concat,
        if_pos (beq_self_eq_true _), if_pos (beq_self_eq_true _)]
    · have hl : ¬((cs.flatMap f ++ f c).getLast? == some s) = true := by
        rw [beq_iff_eq, List.getLast?_append]
        intro he
        cases hs : (f c).getLast? with
        | none => exact hf c (List.getLast?_eq_none_iff.1 hs)
        | some b =>
          rw [hs, Option.some_or] at he
          exact h.not_mem c hc (List.mem_of_getLast? (hs.trans he))
      rw [if_neg hl, if_neg (by simp [hc]), List.flatMap_append, List.flatMap_singleton]

/-- A list falls into the same lines after it is encoded. -/
theorem splitLines_flatMap (hx : Marks f x y) (hr : Marks f r s) (hf : ∀ c, f c ≠ [])
    (xs : List α) : splitLines y s (xs.flatMap f) = (splitLines x r xs).map (List.flatMap f) := by
  unfold splitLines
  dsimp only
  rw [splitOn_flatMap hx, List.map_append, List.getLast?_map, ← List.map_dropLast, List.map_map,
    List.map_map]
  congr 1
  · exact List.map_congr_left fun piece _ => dropLastIf_flatMap hr hf piece
  · cases hl : (xs.splitOn x).getLast? with
    | none => rfl
    | some piece =>
      cases piece with
      | nil => rfl
      | cons c cs =>
        rw [Option.map_some, List.flatMap_cons]
        cases hc : f c with
        | nil => cases hf c hc
        | cons b bs =>
          rw [List.map_singleton, List.flatMap_cons, hc]
          rfl

theorem marks_utf8EncodeChar {c : Char} {b : UInt8} (hc : c.val.toNat = b.toNat)
    (hb : b.toNat < 128) : Marks String.utf8EncodeChar c b := by
  constructor
  · unfold String.utf8EncodeChar
    dsimp only
    rw [hc, if_pos (by omega), UInt8.ofNat_toNat]
  · intro d hd hm
    have hne : d.val.toNat ≠ b.toNat := fun he =>
      hd (Char.ext (UInt32.toNat_inj.1 (he.trans hc.symm)))
    unfold String.utf8EncodeChar at hm
    generalize d.val.toNat = v at hne hm
    dsimp only at hm
    split_ifs at hm <;>
      simp only [List.mem_cons, List.not_mem_nil, or_false, ← UInt8.toNat_inj,
        UInt8.toNat_ofNat'] at hm <;>
      omega

theorem fromUTF8?_toUTF8 (t : String) : String.fromUTF8? t.toUTF8 = some t := by
  have h : t.toUTF8.IsValidUTF8 := t.isValidUTF8
  rw [String.fromUTF8?, dif_pos h]
  rfl

theorem ofBytes_toUTF8 (t : String) : ofBytes t.toUTF8 = text t := by
  rw [ofBytes, fromUTF8?_toUTF8]

theorem fromUTF8?_flatMap (cs : List Char) :
    String.fromUTF8? ⟨(cs.flatMap String.utf8EncodeChar).toArray⟩ = some (String.ofList cs) := by
  have h : (⟨(cs.flatMap String.utf8EncodeChar).toArray⟩ : ByteArray) =
      (String.ofList cs).toUTF8 := by
    refine ByteArray.ext (Array.toList_inj.1 ?_)
    have hb := Text.bytes_eq (String.ofList cs)
    rw [Text.bytes, Text.toList_eq_data_toList, String.toList_ofList] at hb
    exact hb.symm
  rw [h, fromUTF8?_toUTF8]

/-- A text falls into the same lines whether its bytes are divided or its characters. -/
theorem lines_binary_toUTF8 (t : String) : (binary t.toUTF8).lines = (text t).lines := by
  have hfeed : Marks String.utf8EncodeChar '\n' 10 := marks_utf8EncodeChar rfl (by decide)
  have hret : Marks String.utf8EncodeChar '\r' 13 := marks_utf8EncodeChar rfl (by decide)
  have hb : t.toUTF8.toList = t.toList.flatMap String.utf8EncodeChar := Text.bytes_eq t
  unfold lines linesOfText
  dsimp only
  rw [hb, splitLines_flatMap hfeed hret fun _ => String.utf8EncodeChar_ne_nil, List.map_map,
    List.map_map]
  exact List.map_congr_left fun cs _ => fromUTF8?_flatMap cs

end Content

end TableStore

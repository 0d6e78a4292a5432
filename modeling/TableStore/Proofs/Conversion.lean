import TableStore.Proofs.Normalisation

/-!
# Conversion

What a type makes of a value is of that type and is kept as it is when it is converted again. So the
check of a column after the conversion never fails, and a column refuses what its type refuses.
-/
namespace TableStore

namespace DataType

variable {t : DataType} {v w : Value}

theorem eq_null_iff_of_convert? (h : t.convert? v = some w) : w = .null ↔ v = .null := by
  constructor
  · rintro rfl
    by_contra hv
    cases type?_of_convert? hv h
  · rintro rfl
    rw [convert?_null] at h
    exact (Option.some.inj h).symm

/-- A second conversion changes nothing. -/
theorem convert?_convert? (h : t.convert? v = some w) : t.convert? w = some w := by
  by_cases hv : v = .null
  · rw [(eq_null_iff_of_convert? h).2 hv, convert?_null]
  · exact convert?_of_type? (type?_of_convert? hv h)

end DataType

/-- The message of a column is that of its type with its own name after it. -/
theorem Error.text_unreadable_some (v : Value) (t : DataType) (column : String) :
    (ofConversion (.unreadable v t (some column))).text =
      (ofConversion (.unreadable v t none)).text ++ " for column '" ++ column ++ "'" := by
  unfold Error.text ConversionError.message
  simp only [String.append_assoc, String.append_empty]

namespace Column

variable {c : Column} {v : Value} {e : Error}

theorem convert_eq_error_iff : c.convert v = .error e ↔
    c.type.convert? v = none ∧ e = .ofConversion (.unreadable v c.type (some c.name)) := by
  unfold convert
  split
  · rename_i h
    simp [h, eq_comm]
  · rename_i w h
    rw [if_pos (DataType.admits_of_convert? h)]
    simp [h]

/-- A column gives what its type gives, and adds its name to the message of a refusal. -/
theorem mapError_text_convert (c : Column) (v : Value) :
    (c.convert v).mapError Error.text =
      (c.type.convert v).mapError fun e => e.text ++ " for column '" ++ c.name ++ "'" := by
  cases h : c.type.convert v with
  | ok w =>
    rw [convert_eq_ok_iff.2 (DataType.convert_eq_ok_iff.1 h)]
    rfl
  | error e =>
    obtain ⟨hv, rfl⟩ := DataType.convert_eq_error_iff.1 h
    rw [convert_eq_error_iff.2 ⟨hv, rfl⟩]
    exact congrArg Except.error (Error.text_unreadable_some v c.type c.name)

end Column

namespace DataType

/-- What a value is converted to is admitted by the type and, unless it is nothing, of the type
itself, and a second conversion gives it again. So the check of a column of the type after the
conversion never fails: the column refuses a value when the type does, with the message of the type
and its own name after it. -/
theorem convert_idempotent (t : DataType) (v : Value) :
    (∀ w, t.convert v = .ok w → t.admits w = true ∧ (w = .null ↔ v = .null) ∧
      (v ≠ .null → w.type? = some t) ∧ t.convert w = .ok w) ∧
    ∀ c : Column, c.type = t →
      (∀ w name u, c.convert v ≠ .error (.ofConversion (.notAdmitted w name u))) ∧
      (c.convert v).mapError Error.text =
        (t.convert v).mapError fun e => e.text ++ " for column '" ++ c.name ++ "'" := by
  refine ⟨fun w h => ?_, ?_⟩
  · rw [convert_eq_ok_iff] at h
    exact ⟨admits_of_convert? h, eq_null_iff_of_convert? h, fun hv => type?_of_convert? hv h,
      convert_eq_ok_iff.2 (convert?_convert? h)⟩
  · rintro c rfl
    refine ⟨fun w name u h => ?_, c.mapError_text_convert v⟩
    cases (Column.convert_eq_error_iff.1 h).2

/-- More digits than the number can keep. -/
theorem convert_idempotent_digits :
    convert .double (.string "9007199254740993") = .ok (.float ⟨0x4340000000000000⟩) ∧
      (Value.float ⟨0x4340000000000000⟩).type? = some .double ∧
      convert .double (.float ⟨0x4340000000000000⟩) = .ok (.float ⟨0x4340000000000000⟩) ∧
      ((Column.mk "a" .double).convert (.string "9007199254740993")).mapError Error.text =
        .ok (.float ⟨0x4340000000000000⟩) := by
  have h : convert .double (.string "9007199254740993") = .ok (.float ⟨0x4340000000000000⟩) := by
    decide +kernel
  obtain ⟨hkept, hcolumn⟩ := convert_idempotent .double (.string "9007199254740993")
  obtain ⟨-, -, htype, hagain⟩ := hkept _ h
  refine ⟨h, htype Value.noConfusion, hagain, ?_⟩
  rw [(hcolumn (Column.mk "a" .double) rfl).2, h]
  rfl

end DataType

end TableStore

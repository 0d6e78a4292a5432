import TableStore.Document
import TableStore.Proofs.Outcome

/-!
# Structures in documents

Where no key is repeated, the fields of a structure are read independently of each other, in any
order and whatever else stands between them, and the entries of an object are read in their order.
-/
namespace TableStore

namespace Json

theorem itemsWhole_eq_true_iff {js : List Json} :
    itemsWhole js = true ↔ ∀ j ∈ js, j.isWhole = true := by
  induction js with
  | nil => simp [itemsWhole]
  | cons j js ih => simp [itemsWhole, ih]

theorem membersWhole_eq_true_iff {ms : List (JsonText × Json)} :
    membersWhole ms = true ↔ ∀ m ∈ ms, m.2.isWhole = true := by
  induction ms with
  | nil => simp [membersWhole]
  | cons m ms ih =>
    obtain ⟨k, j⟩ := m
    simp [membersWhole, ih]

end Json

namespace Document

variable {α β σ τ : Type} {ms : List (JsonText × Json)}

/-- The keys of an object are texts, and none of them is repeated. -/
structure AreFields (ms : List (JsonText × Json)) : Prop where
  keys : ∀ m ∈ ms, m.1.isSome = true
  nodup : (ms.map Prod.fst).Nodup

theorem AreFields.of_cons {m : JsonText × Json} (h : AreFields (m :: ms)) : AreFields ms :=
  ⟨(List.forall_mem_cons.1 h.keys).2, (List.nodup_cons.1 h.nodup).2⟩

/-! Single fields -/

/-- One field of a structure, by itself. -/
def stepField (key : String) (value : Json → Except Error α) (o : Option α) (k : String)
    (j : Json) : Except Error (Option α) :=
  if k = key then once o (value j) else .ok o

/-- What a structure has in one field. -/
def readField (key : String) (value : Json → Except Error α) (ms : List (JsonText × Json)) :
    Except Error (Option α) :=
  foldMembers (stepField key value) none ms

variable {key : String} {value : Json → Except Error α}

theorem foldMembers_stepField (hf : AreFields ms) (hk : some key ∉ ms.map Prod.fst) (o : Option α) :
    foldMembers (stepField key value) o ms = .ok o := by
  induction ms with
  | nil => rfl
  | cons m ms ih =>
    obtain ⟨_ | k, j⟩ := m
    · cases hf.keys (none, j) List.mem_cons_self
    · rw [List.map_cons, List.mem_cons, not_or] at hk
      have hne : k ≠ key := fun he => hk.1 (congrArg some he.symm)
      rw [foldMembers, stepField, if_neg hne]
      exact ih hf.of_cons hk.2

theorem readField_of_not_mem (hf : AreFields ms) (hk : some key ∉ ms.map Prod.fst) :
    readField key value ms = .ok none :=
  foldMembers_stepField hf hk none

theorem readField_of_mem (hf : AreFields ms) {j : Json} (hm : (some key, j) ∈ ms) :
    readField key value ms = (value j).map some := by
  induction ms with
  | nil => cases hm
  | cons m ms ih =>
    have hn := List.nodup_cons.1 hf.nodup
    rcases List.mem_cons.1 hm with rfl | hrest
    · rw [readField, foldMembers, stepField, if_pos rfl, once]
      cases value j with
      | error e => rfl
      | ok x => exact foldMembers_stepField hf.of_cons hn.1 (some x)
    · obtain ⟨_ | k, i⟩ := m
      · cases hf.keys (none, i) List.mem_cons_self
      · have hne : k ≠ key := by
          rintro rfl
          exact hn.1 (List.mem_map.2 ⟨_, hrest, rfl⟩)
        rw [readField, foldMembers, stepField, if_neg hne]
        exact ih hf.of_cons hrest

/-! Structures -/

/-- Two structures side by side. -/
def both (first : α → String → Json → Except Error α) (second : β → String → Json → Except Error β)
    (s : α × β) (k : String) (j : Json) : Except Error (α × β) := do
  return (← first s.1 k j, ← second s.2 k j)

theorem foldMembers_both {first : α → String → Json → Except Error α}
    {second : β → String → Json → Except Error β} {s s' : α × β} :
    foldMembers (both first second) s ms = .ok s' ↔
      foldMembers first s.1 ms = .ok s'.1 ∧ foldMembers second s.2 ms = .ok s'.2 := by
  induction ms generalizing s with
  | nil => simp [foldMembers, Prod.ext_iff]
  | cons m ms ih =>
    obtain ⟨_ | k, j⟩ := m
    · simp [foldMembers]
    · simp only [foldMembers, both, bind_eq_ok_iff, ih]
      constructor
      · rintro ⟨_, ⟨a, ha, b, hb, h⟩, hs, hs'⟩
        cases h
        exact ⟨⟨a, ha, hs⟩, b, hb, hs'⟩
      · rintro ⟨⟨a, ha, hs⟩, b, hb, hs'⟩
        exact ⟨(a, b), ⟨a, ha, b, hb, rfl⟩, hs, hs'⟩

/-- The parts of a structure can be read in its place. -/
theorem foldMembers_map {parts : σ → τ} {step : σ → String → Json → Except Error σ}
    {other : τ → String → Json → Except Error τ}
    (hp : ∀ s k j, j.isWhole = true → (step s k j).map parts = other (parts s) k j)
    (hw : ∀ m ∈ ms, m.2.isWhole = true) (s : σ) :
    (foldMembers step s ms).map parts = foldMembers other (parts s) ms := by
  induction ms generalizing s with
  | nil => rfl
  | cons m ms ih =>
    obtain ⟨hj, hrest⟩ := List.forall_mem_cons.1 hw
    obtain ⟨_ | k, j⟩ := m
    · rfl
    · rw [foldMembers, foldMembers, ← hp s k j hj]
      cases step s k j with
      | error e => rfl
      | ok s₁ => exact ih hrest s₁

namespace ColumnFields

def parts (f : ColumnFields) : Option String × Option DataType := (f.name, f.type)

theorem map_parts_set (f : ColumnFields) (k : String) {j : Json} (hj : j.isWhole = true) :
    (f.set k j).map parts =
      both (stepField "name" readText) (stepField "type" readType) f.parts k j := by
  simp only [set, both, stepField, parts]
  by_cases hn : k = "name"
  · simp only [hn, String.reduceEq, reduceIte]
    cases once f.name (readText j) <;> rfl
  by_cases ht : k = "type"
  · simp only [ht, String.reduceEq, reduceIte]
    cases once f.type (readType j) <;> rfl
  · simp [hn, ht, passOver, hj]
    rfl

theorem foldMembers_set (hw : ∀ m ∈ ms, m.2.isWhole = true) {f : ColumnFields} :
    foldMembers set {} ms = .ok f ↔
      readField "name" readText ms = .ok f.name ∧ readField "type" readType ms = .ok f.type := by
  have hi : Function.Injective parts := by
    rintro ⟨n, t⟩ ⟨n', t'⟩ h
    cases h
    rfl
  rw [← map_eq_ok_iff_of_injective hi, foldMembers_map (fun s k _ => map_parts_set s k) hw,
    foldMembers_both]
  rfl

end ColumnFields

namespace TableFields

variable (reader : NumeralReader)

def parts (f : TableFields) :
    Option String × Option (List (String × DataType)) × Option (List (List (String × Value))) :=
  (f.name, f.columns, f.rows)

theorem map_parts_set (f : TableFields) (k : String) {j : Json} (hj : j.isWhole = true) :
    (f.set reader k j).map parts = both (stepField "name" readText)
      (both (stepField "columns" (readItems readColumn))
        (stepField "rows" (readItems (readRow reader)))) f.parts k j := by
  simp only [set, both, stepField, parts]
  by_cases hn : k = "name"
  · simp only [hn, String.reduceEq, reduceIte]
    cases once f.name (readText j) <;> rfl
  by_cases hc : k = "columns"
  · simp only [hc, String.reduceEq, reduceIte]
    cases once f.columns (readItems readColumn j) <;> rfl
  by_cases hr : k = "rows"
  · simp only [hr, String.reduceEq, reduceIte]
    cases once f.rows (readItems (readRow reader) j) <;> rfl
  · simp [hn, hc, hr, passOver, hj]
    rfl

theorem foldMembers_set (hw : ∀ m ∈ ms, m.2.isWhole = true) {f : TableFields} :
    foldMembers (set reader) {} ms = .ok f ↔
      readField "name" readText ms = .ok f.name ∧
        readField "columns" (readItems readColumn) ms = .ok f.columns ∧
          readField "rows" (readItems (readRow reader)) ms = .ok f.rows := by
  have hi : Function.Injective parts := by
    rintro ⟨n, c, r⟩ ⟨n', c', r'⟩ h
    cases h
    rfl
  rw [← map_eq_ok_iff_of_injective hi, foldMembers_map (fun s k _ => map_parts_set reader s k) hw,
    foldMembers_both, foldMembers_both]
  rfl

end TableFields

namespace DatabaseFields

variable (reader : NumeralReader)

def parts (f : DatabaseFields) : Option String × Option (List (String × Table)) :=
  (f.name, f.tables)

theorem map_parts_set (f : DatabaseFields) (k : String) {j : Json} (hj : j.isWhole = true) :
    (f.set reader k j).map parts =
      both (stepField "name" readText) (stepField "tables" (readEntries (readTable reader)))
        f.parts k j := by
  simp only [set, both, stepField, parts]
  by_cases hn : k = "name"
  · simp only [hn, String.reduceEq, reduceIte]
    cases once f.name (readText j) <;> rfl
  by_cases ht : k = "tables"
  · simp only [ht, String.reduceEq, reduceIte]
    cases once f.tables (readEntries (readTable reader) j) <;> rfl
  · simp [hn, ht, passOver, hj]
    rfl

theorem foldMembers_set (hw : ∀ m ∈ ms, m.2.isWhole = true) {f : DatabaseFields} :
    foldMembers (set reader) {} ms = .ok f ↔
      readField "name" readText ms = .ok f.name ∧
        readField "tables" (readEntries (readTable reader)) ms = .ok f.tables := by
  have hi : Function.Injective parts := by
    rintro ⟨n, t⟩ ⟨n', t'⟩ h
    cases h
    rfl
  rw [← map_eq_ok_iff_of_injective hi, foldMembers_map (fun s k _ => map_parts_set reader s k) hw,
    foldMembers_both]
  rfl

end DatabaseFields

/-! Entries -/

theorem putEntry_of_not_mem {key : String} (x : α) {es : List (String × α)}
    (h : key ∉ es.map Prod.fst) : putEntry key x es = es ++ [(key, x)] := by
  induction es with
  | nil => rfl
  | cons e es ih =>
    obtain ⟨k, y⟩ := e
    rw [List.map_cons, List.mem_cons, not_or] at h
    rw [putEntry, if_neg (Ne.symm h.1), ih h.2]
    rfl

theorem foldMembers_putEntry {es es' : List (String × α)} (hk : ∀ m ∈ ms, m.1.isSome = true)
    (hn : (es.map (fun e : String × α => some e.1) ++ ms.map Prod.fst).Nodup) :
    foldMembers (fun es k j => do return putEntry k (← value j) es) es ms = .ok es' ↔
      ∃ added, es' = es ++ added ∧
        List.Forall₂ (fun m e => m.1 = some e.1 ∧ value m.2 = .ok e.2) ms added := by
  induction ms generalizing es with
  | nil => simp [foldMembers, eq_comm]
  | cons m ms ih =>
    obtain ⟨hm, hrest⟩ := List.forall_mem_cons.1 hk
    obtain ⟨_ | k, j⟩ := m
    · cases hm
    have hnew : k ∉ es.map Prod.fst := by
      intro h
      obtain ⟨e, he, rfl⟩ := List.mem_map.1 h
      have hleft : some e.1 ∈ es.map fun e => some e.1 := List.mem_map_of_mem he
      exact (List.nodup_append.1 hn).2.2 _ hleft _ List.mem_cons_self rfl
    have hnext : ∀ x, ((es ++ [(k, x)]).map (fun e : String × α => some e.1) ++ ms.map Prod.fst).Nodup := by
      intro x
      simpa using hn
    have hstep : ∀ {s}, (do return putEntry k (← value j) es) = Except.ok s ↔
        ∃ x, value j = .ok x ∧ es ++ [(k, x)] = s := by
      intro s
      rw [bind_eq_ok_iff]
      refine exists_congr fun x => and_congr_right fun _ => ?_
      rw [putEntry_of_not_mem x hnew]
      exact ⟨Except.ok.inj, congrArg Except.ok⟩
    rw [foldMembers, bind_eq_ok_iff]
    constructor
    · rintro ⟨s, hs, h⟩
      obtain ⟨x, hx, rfl⟩ := hstep.1 hs
      obtain ⟨added, rfl, ha⟩ := (ih hrest (hnext x)).1 h
      exact ⟨(k, x) :: added, by simp, .cons ⟨rfl, hx⟩ ha⟩
    · rintro ⟨_, rfl, h⟩
      cases h with
      | @cons _ e _ added he ha =>
        obtain ⟨k', x⟩ := e
        obtain ⟨hk', hx⟩ := he
        cases hk'
        exact ⟨_, hstep.2 ⟨x, hx, rfl⟩, (ih hrest (hnext x)).2 ⟨added, by simp, ha⟩⟩

/-- Entries with distinct keys are read in their order. -/
theorem readEntries_eq_ok_iff (hf : AreFields ms) {es : List (String × α)} :
    readEntries value (.object ms) = .ok es ↔
      List.Forall₂ (fun m e => m.1 = some e.1 ∧ value m.2 = .ok e.2) ms es := by
  unfold readEntries
  rw [foldMembers_putEntry hf.keys (by simpa using hf.nodup)]
  simp

end Document

end TableStore

/-!
# Maps of names

A finite map whose keys are names, as the list of its entries in increasing order of the names.
Names are ordered by their characters, which is the order of their bytes.
-/
namespace TableStore

structure NameMap (α : Type) where
  entries : List (String × α)
  sorted : (entries.map Prod.fst).Pairwise (· < ·)

namespace NameMap

variable {α : Type}

def empty : NameMap α := ⟨[], .nil⟩

def keys (m : NameMap α) : List String := m.entries.map Prod.fst

def values (m : NameMap α) : List α := m.entries.map Prod.snd

def get? (m : NameMap α) (name : String) : Option α := m.entries.lookup name

def contains (m : NameMap α) (name : String) : Bool := (m.get? name).isSome

def insertEntry (name : String) (x : α) : List (String × α) → List (String × α)
  | [] => [(name, x)]
  | (k, y) :: es =>
    if name < k then (name, x) :: (k, y) :: es
    else if name = k then (name, x) :: es
    else (k, y) :: insertEntry name x es

theorem lt_of_not_lt_of_ne {a b : String} (h : ¬a < b) (hne : a ≠ b) : b < a := by
  apply Decidable.byContradiction
  intro hba
  exact hne (String.le_antisymm (String.not_lt.1 hba) (String.not_lt.1 h))

theorem mem_keys_insertEntry {name k : String} {x : α} {es : List (String × α)}
    (h : k ∈ (insertEntry name x es).map Prod.fst) : k = name ∨ k ∈ es.map Prod.fst := by
  induction es with
  | nil => simpa [insertEntry] using h
  | cons e es ih =>
    obtain ⟨k', y⟩ := e
    unfold insertEntry at h
    split at h
    · simpa using h
    · split at h
      · rename_i hn
        simp only [List.map_cons, List.mem_cons] at h ⊢
        exact h.elim Or.inl fun h => Or.inr (Or.inr h)
      · simp only [List.map_cons, List.mem_cons] at h ⊢
        rcases h with h | h
        · exact Or.inr (Or.inl h)
        · exact (ih h).elim Or.inl fun h => Or.inr (Or.inr h)

theorem sorted_insertEntry (name : String) (x : α) {es : List (String × α)}
    (h : (es.map Prod.fst).Pairwise (· < ·)) :
    ((insertEntry name x es).map Prod.fst).Pairwise (· < ·) := by
  induction es with
  | nil => simp [insertEntry]
  | cons e es ih =>
    obtain ⟨k, y⟩ := e
    rw [List.map_cons, List.pairwise_cons] at h
    unfold insertEntry
    split
    · rename_i hn
      simp only [List.map_cons, List.pairwise_cons]
      refine ⟨fun k' hk' => ?_, h⟩
      rcases List.mem_cons.1 hk' with rfl | hk'
      · exact hn
      · exact String.lt_trans hn (h.1 k' hk')
    · split
      · rename_i hk
        subst hk
        exact List.pairwise_cons.2 h
      · rename_i hn hk
        rw [List.map_cons, List.pairwise_cons]
        refine ⟨fun k' hk' => ?_, ih h.2⟩
        rcases mem_keys_insertEntry hk' with rfl | hk'
        · exact lt_of_not_lt_of_ne hn hk
        · exact h.1 k' hk'

def insert (m : NameMap α) (name : String) (x : α) : NameMap α :=
  ⟨insertEntry name x m.entries, sorted_insertEntry name x m.sorted⟩

def erase (m : NameMap α) (name : String) : NameMap α where
  entries := m.entries.filter fun e => e.1 != name
  sorted := m.sorted.sublist ((List.filter_sublist (l := m.entries)).map Prod.fst)

def ofList (es : List (String × α)) : NameMap α := es.foldl (fun m e => m.insert e.1 e.2) empty

theorem lookup_insertEntry_self (name : String) (x : α) (es : List (String × α)) :
    (insertEntry name x es).lookup name = some x := by
  induction es with
  | nil => simp [insertEntry]
  | cons e es ih =>
    obtain ⟨k, y⟩ := e
    unfold insertEntry
    split
    · simp
    · split
      · simp
      · rename_i hk
        simpa [List.lookup_cons, beq_eq_false_iff_ne.2 hk] using ih

theorem lookup_insertEntry_of_ne {name k : String} (x : α) (es : List (String × α)) (h : k ≠ name) :
    (insertEntry name x es).lookup k = es.lookup k := by
  induction es with
  | nil => simp [insertEntry, List.lookup_cons, beq_eq_false_iff_ne.2 h]
  | cons e es ih =>
    obtain ⟨k', y⟩ := e
    unfold insertEntry
    split
    · simp [List.lookup_cons, beq_eq_false_iff_ne.2 h]
    · split
      · rename_i hk
        subst hk
        simp [List.lookup_cons, beq_eq_false_iff_ne.2 h]
      · simp only [List.lookup_cons, ih]

@[simp] theorem get?_insert_self (m : NameMap α) (name : String) (x : α) :
    (m.insert name x).get? name = some x :=
  lookup_insertEntry_self name x m.entries

theorem get?_insert_of_ne (m : NameMap α) {name k : String} (x : α) (h : k ≠ name) :
    (m.insert name x).get? k = m.get? k :=
  lookup_insertEntry_of_ne x m.entries h

theorem lookup_filter_ne {name k : String} (es : List (String × α)) :
    (es.filter fun e => e.1 != name).lookup k = if k = name then none else es.lookup k := by
  induction es with
  | nil => simp
  | cons e es ih =>
    obtain ⟨k', y⟩ := e
    by_cases hk' : k' = name
    · subst hk'
      by_cases h : k = k'
      · simpa [h] using ih
      · simpa [h, List.lookup_cons, beq_eq_false_iff_ne.2 h] using ih
    · by_cases h : k = name
      · subst h
        have hne : (k == k') = false := beq_eq_false_iff_ne.2 (Ne.symm hk')
        simpa [hk', List.lookup_cons, hne] using ih
      · simp only [h, if_false] at ih ⊢
        simp [hk', List.lookup_cons, ih]

@[simp] theorem get?_erase_self (m : NameMap α) (name : String) :
    (m.erase name).get? name = none := by
  simp [get?, erase, lookup_filter_ne]

theorem get?_erase_of_ne (m : NameMap α) {name k : String} (h : k ≠ name) :
    (m.erase name).get? k = m.get? k := by
  simp [get?, erase, lookup_filter_ne, h]

end NameMap

end TableStore

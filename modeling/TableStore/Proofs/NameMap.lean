import Mathlib.Data.List.Nodup
import Mathlib.Data.List.Perm.Basic
import TableStore.NameMap

/-!
# Maps of names as functions

A map is determined by what it has under each name, and each change to it is a change at one name.
-/
namespace TableStore.NameMap

variable {α : Type}

theorem get?_insert (m : NameMap α) (name k : String) (x : α) :
    (m.insert name x).get? k = if k = name then some x else m.get? k := by
  split
  · rename_i hk
    rw [hk, get?_insert_self]
  · rename_i hk
    rw [get?_insert_of_ne m x hk]

theorem get?_erase (m : NameMap α) (name k : String) :
    (m.erase name).get? k = if k = name then none else m.get? k := by
  split
  · rename_i hk
    rw [hk, get?_erase_self]
  · rename_i hk
    rw [get?_erase_of_ne m hk]

theorem nodup_keys (m : NameMap α) : m.keys.Nodup := by
  refine m.sorted.imp ?_
  rintro k _ h rfl
  exact String.lt_irrefl k h

theorem lookup_eq_some_iff_mem {es : List (String × α)} (h : (es.map Prod.fst).Nodup)
    {name : String} {x : α} : es.lookup name = some x ↔ (name, x) ∈ es := by
  induction es with
  | nil => simp
  | cons e es ih =>
    obtain ⟨k, y⟩ := e
    rw [List.map_cons, List.nodup_cons] at h
    rw [List.lookup_cons, List.mem_cons]
    by_cases hk : name = k
    · subst hk
      have hn : (name, x) ∉ es := by
        intro hm
        exact h.1 (List.mem_map.2 ⟨(name, x), hm, rfl⟩)
      simp [hn, eq_comm]
    · rw [beq_eq_false_iff_ne.2 hk]
      simp [hk, ih h.2]

theorem get?_eq_some_iff_mem {m : NameMap α} {name : String} {x : α} :
    m.get? name = some x ↔ (name, x) ∈ m.entries :=
  lookup_eq_some_iff_mem m.nodup_keys

theorem mem_keys_iff {m : NameMap α} {name : String} :
    name ∈ m.keys ↔ ∃ x, m.get? name = some x := by
  rw [keys, List.mem_map]
  constructor
  · rintro ⟨⟨k, x⟩, hm, rfl⟩
    exact ⟨x, get?_eq_some_iff_mem.2 hm⟩
  · rintro ⟨x, hx⟩
    exact ⟨(name, x), get?_eq_some_iff_mem.1 hx, rfl⟩

theorem ext_get? {m m' : NameMap α} (h : ∀ name, m.get? name = m'.get? name) : m = m' := by
  have hs : ∀ m : NameMap α, m.entries.Pairwise fun e f => e.1 < f.1 :=
    fun m => List.pairwise_map.1 m.sorted
  have hn : ∀ m : NameMap α, m.entries.Nodup := fun m => m.nodup_keys.of_map Prod.fst
  have hp : m.entries.Perm m'.entries := by
    rw [List.perm_ext_iff_of_nodup (hn m) (hn m')]
    rintro ⟨name, x⟩
    rw [← get?_eq_some_iff_mem, ← get?_eq_some_iff_mem, h]
  have he : m.entries = m'.entries := by
    refine hp.eq_of_pairwise (fun e f _ _ hef hfe => ?_) (hs m) (hs m')
    exact absurd (String.lt_trans hef hfe) (String.lt_irrefl _)
  cases m
  cases m'
  cases he
  rfl

theorem insert_of_get? {m : NameMap α} {name : String} {x : α} (h : m.get? name = some x) :
    m.insert name x = m := by
  refine ext_get? fun k => ?_
  rw [get?_insert]
  split
  · rename_i hk
    rw [hk, h]
  · rfl

theorem insert_insert (m : NameMap α) (name : String) (x y : α) :
    (m.insert name x).insert name y = m.insert name y := by
  refine ext_get? fun k => ?_
  rw [get?_insert, get?_insert, get?_insert]
  split <;> rfl

variable {β : Type}

theorem keys_filterMap_sublist (f : String → α → Option β) (es : List (String × α)) :
    ((es.filterMap fun e => (f e.1 e.2).map (e.1, ·)).map Prod.fst).Sublist (es.map Prod.fst) := by
  induction es with
  | nil => exact .refl _
  | cons e es ih =>
    rw [List.filterMap_cons]
    cases f e.1 e.2 with
    | none => exact ih.cons e.1
    | some y => exact ih.cons_cons e.1

/-- What is made of the entries, those that nothing is made of left out. -/
def filterMap (m : NameMap α) (f : String → α → Option β) : NameMap β where
  entries := m.entries.filterMap fun e => (f e.1 e.2).map (e.1, ·)
  sorted := m.sorted.sublist (keys_filterMap_sublist f m.entries)

theorem values_filterMap (m : NameMap α) (f : String → α → Option β) :
    (m.filterMap f).values = m.entries.filterMap fun e => f e.1 e.2 := by
  rw [values, filterMap, List.map_filterMap]
  simp only [Option.map_map, Function.comp_def, Option.map_id']

theorem get?_filterMap (m : NameMap α) (f : String → α → Option β) (name : String) :
    (m.filterMap f).get? name = (m.get? name).bind (f name) := by
  ext y
  rw [get?_eq_some_iff_mem, Option.bind_eq_some_iff, filterMap, List.mem_filterMap]
  constructor
  · rintro ⟨⟨k, x⟩, hm, hf⟩
    obtain ⟨z, hz, hp⟩ := Option.map_eq_some_iff.1 hf
    cases hp
    exact ⟨x, get?_eq_some_iff_mem.2 hm, hz⟩
  · rintro ⟨x, hx, hf⟩
    exact ⟨(name, x), get?_eq_some_iff_mem.1 hx, Option.map_eq_some_iff.2 ⟨y, hf, rfl⟩⟩

end TableStore.NameMap

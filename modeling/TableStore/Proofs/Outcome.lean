import Mathlib.Data.List.Forall2

/-!
# Steps that can fail

When a sequence of steps that can fail gives a result, and when an error.
-/
namespace TableStore

variable {ε α β : Type}

theorem ok_bind (a : α) (f : α → Except ε β) : ((.ok a : Except ε α) >>= f) = f a := rfl

theorem bind_eq_ok_iff {x : Except ε α} {f : α → Except ε β} {b : β} :
    (x >>= f) = .ok b ↔ ∃ a, x = .ok a ∧ f a = .ok b := by
  cases x <;> simp [bind, Except.bind]

theorem bind_eq_error_iff {x : Except ε α} {f : α → Except ε β} {e : ε} :
    (x >>= f) = .error e ↔ x = .error e ∨ ∃ a, x = .ok a ∧ f a = .error e := by
  cases x <;> simp [bind, Except.bind]

theorem map_eq_ok_iff {x : Except ε α} {f : α → β} {b : β} :
    x.map f = .ok b ↔ ∃ a, x = .ok a ∧ f a = b := by
  cases x <;> simp [Except.map]

theorem map_eq_ok_iff_of_injective {f : α → β} (hf : Function.Injective f) {x : Except ε α}
    {a : α} : x.map f = .ok (f a) ↔ x = .ok a := by
  cases x <;> simp [Except.map, hf.eq_iff]

theorem map_eq_error_iff {x : Except ε α} {f : α → β} {e : ε} :
    x.map f = .error e ↔ x = .error e := by
  cases x <;> simp [Except.map]

theorem toOption_eq_some_iff {x : Except ε α} {a : α} : x.toOption = some a ↔ x = .ok a := by
  cases x <;> simp [Except.toOption]

/-- Results come in the order of what they are made from. -/
theorem mapM_eq_ok_iff {f : α → Except ε β} {xs : List α} {ys : List β} :
    xs.mapM f = .ok ys ↔ List.Forall₂ (fun x y => f x = .ok y) xs ys := by
  induction xs generalizing ys with
  | nil => cases ys <;> simp [pure, Except.pure]
  | cons x xs ih =>
    rw [List.mapM_cons, bind_eq_ok_iff, List.forall₂_cons_left_iff]
    refine exists_congr fun y => ?_
    rw [bind_eq_ok_iff]
    constructor
    · rintro ⟨hx, ys', hxs, h⟩
      cases h
      exact ⟨ys', hx, ih.1 hxs, rfl⟩
    · rintro ⟨ys', hx, hxs, rfl⟩
      exact ⟨hx, ys', ih.2 hxs, rfl⟩

theorem exists_mapM {f : α → Except ε β} {xs : List α} (h : ∀ x ∈ xs, ∃ y, f x = .ok y) :
    ∃ ys, xs.mapM f = .ok ys := by
  simp only [mapM_eq_ok_iff]
  induction xs with
  | nil => exact ⟨[], .nil⟩
  | cons x xs ih =>
    rw [List.forall_mem_cons] at h
    obtain ⟨y, hy⟩ := h.1
    obtain ⟨ys, hys⟩ := ih h.2
    exact ⟨y :: ys, .cons hy hys⟩

theorem mem_of_mapM {f : α → Except ε β} {xs : List α} {ys : List β} (h : xs.mapM f = .ok ys)
    {y : β} (hy : y ∈ ys) : ∃ x ∈ xs, f x = .ok y := by
  have hf := mapM_eq_ok_iff.1 h
  clear h
  induction hf with
  | nil => cases hy
  | @cons x _ _ _ hx _ ih =>
    rcases List.mem_cons.1 hy with rfl | hy
    · exact ⟨x, by simp, hx⟩
    · obtain ⟨x', hm, hx'⟩ := ih hy
      exact ⟨x', by simp [hm], hx'⟩

theorem forall_mem_of_mapM {f : α → Except ε β} {p : β → Prop} (hp : ∀ x y, f x = .ok y → p y)
    {xs : List α} {ys : List β} (h : xs.mapM f = .ok ys) : ∀ y ∈ ys, p y := by
  intro y hy
  obtain ⟨x, -, hx⟩ := mem_of_mapM h hy
  exact hp x y hx

theorem mapM_eq_error {f : α → Except ε β} {xs : List α} {e : ε} (h : xs.mapM f = .error e) :
    ∃ x ∈ xs, f x = .error e := by
  induction xs with
  | nil => cases h
  | cons x xs ih =>
    rw [List.mapM_cons] at h
    rcases bind_eq_error_iff.1 h with h | ⟨y, -, h⟩
    · exact ⟨x, by simp, h⟩
    rcases bind_eq_error_iff.1 h with h | ⟨ys, -, h⟩
    · obtain ⟨x', hx', h⟩ := ih h
      exact ⟨x', by simp [hx'], h⟩
    · cases h

theorem exists_of_mapM {f : α → Except ε β} {xs : List α} {ys : List β} (h : xs.mapM f = .ok ys) :
    ∀ x ∈ xs, ∃ y, f x = .ok y := by
  have hf := mapM_eq_ok_iff.1 h
  clear h
  induction hf with
  | nil => exact List.forall_mem_nil _
  | @cons x y _ _ hx _ ih => exact List.forall_mem_cons.2 ⟨⟨y, hx⟩, ih⟩

/-- Of several errors the first is reported. -/
theorem mapM_eq_error_of_first {f : α → Except ε β} {before after : List α} {x : α} {e : ε}
    (hb : ∀ x ∈ before, ∃ y, f x = .ok y) (hx : f x = .error e) :
    (before ++ x :: after).mapM f = .error e := by
  obtain ⟨ys, hys⟩ := exists_mapM hb
  rw [List.mapM_append, hys, ok_bind, List.mapM_cons, hx]
  rfl

end TableStore

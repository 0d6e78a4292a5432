import Mathlib.Data.List.Nodup
import Mathlib.Logic.Function.Basic

/-!
# Histories

What there is to list follows from a history of what was created, dropped and selected. The last
entry on a database says whether it is there, the last entry on a table since the database was
created whether it has that table, and a selection stands until another one or until its database is
dropped.
-/
namespace TableStore

namespace History

/-- What a statement has done to what is listed. -/
inductive Entry where
  | databaseCreated (name : String)
  | databaseDropped (name : String)
  | databaseSelected (name : String)
  | tableCreated (database table : String)
  | tableDropped (database table : String)
  deriving DecidableEq

/-- The entry is on the same matter as an earlier one, which it takes the place of. -/
@[simp] def Entry.Supersedes (x : Entry) : Entry → Prop
  | databaseCreated n | databaseDropped n => x = databaseCreated n ∨ x = databaseDropped n
  | databaseSelected n => (∃ m, x = databaseSelected m) ∨ x = databaseDropped n
  | tableCreated n t | tableDropped n t =>
    x = tableCreated n t ∨ x = tableDropped n t ∨ x = databaseCreated n

variable {past : List Entry} {x e e' : Entry}

/-- The entry is the last one on its matter. -/
def Holds (past : List Entry) (e : Entry) : Prop :=
  ∃ before after, past = before ++ e :: after ∧ ∀ x ∈ after, ¬x.Supersedes e

/-- Two entries hold, and the second was made after the first. -/
def HoldInOrder (past : List Entry) (e e' : Entry) : Prop :=
  ∃ before after, past = before ++ e :: after ∧ (∀ x ∈ after, ¬x.Supersedes e) ∧ Holds after e'

theorem holds_concat_self (past : List Entry) (e : Entry) : Holds (past ++ [e]) e :=
  ⟨past, [], rfl, nofun⟩

theorem Holds.concat (h : Holds past e) (hx : ¬x.Supersedes e) : Holds (past ++ [x]) e := by
  obtain ⟨before, after, rfl, ha⟩ := h
  exact ⟨before, after ++ [x], by rw [List.append_assoc, List.cons_append],
    List.forall_mem_append.2 ⟨ha, List.forall_mem_singleton.2 hx⟩⟩

theorem Entry.supersedes_self (e : Entry) : e.Supersedes e := by
  cases e with
  | databaseCreated n => exact .inl rfl
  | databaseDropped n => exact .inr rfl
  | databaseSelected n => exact .inl ⟨n, rfl⟩
  | tableCreated n t => exact .inl rfl
  | tableDropped n t => exact .inr (.inl rfl)

theorem holds_concat_cases (h : Holds (past ++ [x]) e) :
    x = e ∨ Holds past e ∧ ¬x.Supersedes e := by
  obtain ⟨before, after, h, ha⟩ := h
  rcases List.eq_nil_or_concat after with rfl | ⟨after, y, rfl⟩
  · exact .inl (List.singleton_inj.1 (List.append_inj' h rfl).2)
  · rw [List.concat_eq_append] at h ha
    rw [← List.cons_append, ← List.append_assoc] at h
    obtain ⟨rfl, hy⟩ := List.append_inj' h rfl
    obtain rfl := List.singleton_inj.1 hy
    exact .inr ⟨⟨before, after, rfl, fun z hz => ha z (List.mem_append_left _ hz)⟩,
      ha x (List.mem_append_right _ (List.mem_singleton_self x))⟩

theorem holds_concat_of_supersedes (hx : x.Supersedes e) : Holds (past ++ [x]) e ↔ x = e := by
  constructor
  · intro h
    rcases holds_concat_cases h with h | ⟨-, h⟩
    · exact h
    · exact absurd hx h
  · rintro rfl
    exact holds_concat_self past x

theorem holds_concat_of_not_supersedes (hx : ¬x.Supersedes e) :
    Holds (past ++ [x]) e ↔ Holds past e := by
  refine ⟨fun h => ?_, fun h => h.concat hx⟩
  rcases holds_concat_cases h with rfl | ⟨h, -⟩
  · exact absurd x.supersedes_self hx
  · exact h

theorem HoldInOrder.concat (h : HoldInOrder past e e') (hx : ¬x.Supersedes e)
    (hx' : ¬x.Supersedes e') : HoldInOrder (past ++ [x]) e e' := by
  obtain ⟨before, after, rfl, ha, h'⟩ := h
  exact ⟨before, after ++ [x], by rw [List.append_assoc, List.cons_append],
    List.forall_mem_append.2 ⟨ha, List.forall_mem_singleton.2 hx⟩, h'.concat hx'⟩

theorem Holds.inOrder (h : Holds past e) (hx : ¬x.Supersedes e) :
    HoldInOrder (past ++ [x]) e x := by
  obtain ⟨before, after, rfl, ha⟩ := h
  exact ⟨before, after ++ [x], by rw [List.append_assoc, List.cons_append],
    List.forall_mem_append.2 ⟨ha, List.forall_mem_singleton.2 hx⟩, holds_concat_self after x⟩

/-- What is listed for a database is what the history says of it. -/
structure Lists (past : List Entry) (n : String) (tables : Option (List String)) : Prop where
  exists_iff : tables.isSome ↔ Holds past (.databaseCreated n)
  mem_iff : ∀ ts, tables = some ts → ∀ t, t ∈ ts ↔ Holds past (.tableCreated n t)
  nodup : ∀ ts, tables = some ts → ts.Nodup
  inOrder : ∀ ts, tables = some ts →
    ts.Pairwise fun t u => HoldInOrder past (.tableCreated n t) (.tableCreated n u)

variable {n t : String} {tables : Option (List String)}

/-- What is done to other databases, or to the selection, makes no difference. -/
theorem Lists.concat (h : Lists past n tables) (hd : ¬x.Supersedes (.databaseCreated n))
    (ht : ∀ t, ¬x.Supersedes (.tableCreated n t)) : Lists (past ++ [x]) n tables where
  exists_iff := by rw [holds_concat_of_not_supersedes hd, h.exists_iff]
  mem_iff ts hts t := by rw [holds_concat_of_not_supersedes (ht t), h.mem_iff ts hts]
  nodup := h.nodup
  inOrder ts hts := (h.inOrder ts hts).imp fun ho => ho.concat (ht _) (ht _)

theorem lists_databaseCreated (past : List Entry) (n : String) :
    Lists (past ++ [.databaseCreated n]) n (some []) where
  exists_iff := iff_of_true rfl (holds_concat_self past _)
  mem_iff ts hts t := by
    cases hts
    have hx : (Entry.databaseCreated n).Supersedes (.tableCreated n t) := .inr (.inr rfl)
    rw [holds_concat_of_supersedes hx]
    exact iff_of_false (List.not_mem_nil) nofun
  nodup ts hts := by
    cases hts
    exact .nil
  inOrder ts hts := by
    cases hts
    exact .nil

theorem lists_databaseDropped (past : List Entry) (n : String) :
    Lists (past ++ [.databaseDropped n]) n none where
  exists_iff := by
    have hx : (Entry.databaseDropped n).Supersedes (.databaseCreated n) := .inr rfl
    rw [holds_concat_of_supersedes hx]
    exact iff_of_false nofun nofun
  mem_iff := nofun
  nodup := nofun
  inOrder := nofun

/-! An entry on one table makes no difference to the other ones. -/

section Others

variable {ts : List String}

theorem Lists.mem_filter_iff (h : Lists past n tables) (hts : tables = some ts)
    (hx : ∀ u, x.Supersedes (.tableCreated n u) ↔ u = t) {u : String} :
    u ∈ ts.filter (· ≠ t) ↔ u ≠ t ∧ Holds (past ++ [x]) (.tableCreated n u) := by
  rw [List.mem_filter, h.mem_iff ts hts, decide_eq_true_iff, and_comm]
  refine and_congr_right fun hu => ?_
  rw [holds_concat_of_not_supersedes (mt (hx u).1 hu)]

theorem Lists.inOrder_filter (h : Lists past n tables) (hts : tables = some ts)
    (hx : ∀ u, x.Supersedes (.tableCreated n u) ↔ u = t) :
    (ts.filter (· ≠ t)).Pairwise fun u v =>
      HoldInOrder (past ++ [x]) (.tableCreated n u) (.tableCreated n v) := by
  refine ((h.inOrder ts hts).filter _).imp_of_mem fun {u v} hu hv ho => ?_
  have hu := of_decide_eq_true (List.mem_filter.1 hu).2
  have hv := of_decide_eq_true (List.mem_filter.1 hv).2
  exact ho.concat (mt (hx u).1 hu) (mt (hx v).1 hv)

end Others

theorem supersedes_tableDropped_iff (n t u : String) :
    (Entry.tableDropped n t).Supersedes (.tableCreated n u) ↔ u = t := by
  simp [eq_comm]

theorem Lists.tableDropped (h : Lists past n tables) (t : String) :
    Lists (past ++ [.tableDropped n t]) n (tables.map fun ts => ts.filter (· ≠ t)) where
  exists_iff := by
    rw [holds_concat_of_not_supersedes (by simp), ← h.exists_iff, Option.isSome_map]
  mem_iff ts' hts' u := by
    obtain ⟨ts, hts, rfl⟩ := Option.map_eq_some_iff.1 hts'
    rw [h.mem_filter_iff hts (supersedes_tableDropped_iff n t)]
    refine and_iff_right_of_imp fun hu he => ?_
    rw [holds_concat_of_supersedes ((supersedes_tableDropped_iff n t u).2 he)] at hu
    cases hu
  nodup ts' hts' := by
    obtain ⟨ts, hts, rfl⟩ := Option.map_eq_some_iff.1 hts'
    exact (h.nodup ts hts).filter _
  inOrder ts' hts' := by
    obtain ⟨ts, hts, rfl⟩ := Option.map_eq_some_iff.1 hts'
    exact h.inOrder_filter hts (supersedes_tableDropped_iff n t)

theorem supersedes_tableCreated_iff (n t u : String) :
    (Entry.tableCreated n t).Supersedes (.tableCreated n u) ↔ u = t := by
  simp [eq_comm]

theorem Lists.tableCreated (h : Lists past n tables) (t : String) :
    Lists (past ++ [.tableCreated n t]) n (tables.map fun ts => ts.filter (· ≠ t) ++ [t]) where
  exists_iff := by
    rw [holds_concat_of_not_supersedes (by simp), ← h.exists_iff, Option.isSome_map]
  mem_iff ts' hts' u := by
    obtain ⟨ts, hts, rfl⟩ := Option.map_eq_some_iff.1 hts'
    rw [List.mem_append, List.mem_singleton, h.mem_filter_iff hts (supersedes_tableCreated_iff n t)]
    by_cases hu : u = t
    · rw [hu]
      exact iff_of_true (.inr rfl) (holds_concat_self past _)
    · simp [hu]
  nodup ts' hts' := by
    obtain ⟨ts, hts, rfl⟩ := Option.map_eq_some_iff.1 hts'
    exact List.nodup_append.2 ⟨(h.nodup ts hts).filter _, List.nodup_singleton t, by simp⟩
  inOrder ts' hts' := by
    obtain ⟨ts, hts, rfl⟩ := Option.map_eq_some_iff.1 hts'
    refine List.pairwise_append.2 ⟨h.inOrder_filter hts (supersedes_tableCreated_iff n t),
      List.pairwise_singleton _ t, fun u hu v hv => ?_⟩
    obtain ⟨hu, hne⟩ := List.mem_filter.1 hu
    rw [List.mem_singleton.1 hv]
    exact ((h.mem_iff ts hts u).1 hu).inOrder
      (mt (supersedes_tableCreated_iff n t u).1 (of_decide_eq_true hne))

end History

/-! What there is to list -/

/-- The tables of each database, in order, and the selection. -/
structure Listing where
  tables : String → Option (List String)
  selected : Option String

namespace Listing

open History

def record (l : Listing) : Entry → Listing
  | .databaseCreated n => { l with tables := Function.update l.tables n (some []) }
  | .databaseDropped n =>
    ⟨Function.update l.tables n none, if l.selected = some n then none else l.selected⟩
  | .databaseSelected n => { l with selected := some n }
  | .tableCreated n t =>
    { l with
      tables := Function.update l.tables n
        ((l.tables n).map fun ts => ts.filter (· ≠ t) ++ [t]) }
  | .tableDropped n t =>
    { l with tables := Function.update l.tables n ((l.tables n).map fun ts => ts.filter (· ≠ t)) }

/-- What is listed is what the history says. -/
structure Follows (l : Listing) (past : List Entry) : Prop where
  lists : ∀ n, Lists past n (l.tables n)
  selected : ∀ n, l.selected = some n ↔ Holds past (.databaseSelected n)

variable {l : Listing} {past : List Entry}

theorem Follows.update (h : l.Follows past) {x : Entry} {m : String} {tables : Option (List String)}
    (hm : Lists (past ++ [x]) m tables)
    (hd : ∀ n, n ≠ m → ¬x.Supersedes (.databaseCreated n))
    (ht : ∀ n, n ≠ m → ∀ t, ¬x.Supersedes (.tableCreated n t)) (n : String) :
    Lists (past ++ [x]) n (Function.update l.tables m tables n) := by
  by_cases hn : n = m
  · subst hn
    rw [Function.update_self]
    exact hm
  · rw [Function.update_of_ne hn]
    exact (h.lists n).concat (hd n hn) (ht n hn)

theorem Follows.selected_concat (h : l.Follows past) {x : Entry}
    (hx : ∀ n, ¬x.Supersedes (.databaseSelected n)) (n : String) :
    l.selected = some n ↔ Holds (past ++ [x]) (.databaseSelected n) := by
  rw [holds_concat_of_not_supersedes (hx n)]
  exact h.selected n

/-- What an entry does to a listing is what it says. -/
theorem Follows.record (h : l.Follows past) (x : Entry) : (l.record x).Follows (past ++ [x]) := by
  cases x with
  | databaseCreated m =>
    exact ⟨h.update (lists_databaseCreated past m) (fun n hn => by simp [hn.symm])
      (fun n hn t => by simp [hn.symm]),
      h.selected_concat fun n => by simp⟩
  | databaseDropped m =>
    refine ⟨h.update (lists_databaseDropped past m) (fun n hn => by simp [hn.symm])
      (fun n hn t => by simp), fun n => ?_⟩
    dsimp only [Listing.record]
    by_cases hn : n = m
    · subst hn
      rw [holds_concat_of_supersedes (by simp)]
      split <;> simp_all
    · rw [holds_concat_of_not_supersedes (by simp [Ne.symm hn]), ← h.selected]
      split <;> simp_all [eq_comm]
  | databaseSelected m =>
    refine ⟨fun n => (h.lists n).concat (by simp) (by simp),
      fun n => ?_⟩
    rw [holds_concat_of_supersedes (by simp)]
    simp [Listing.record]
  | tableCreated m t =>
    exact ⟨h.update ((h.lists m).tableCreated t) (fun n hn => by simp)
      (fun n hn t => by simp [hn.symm]),
      h.selected_concat fun n => by simp⟩
  | tableDropped m t =>
    exact ⟨h.update ((h.lists m).tableDropped t) (fun n hn => by simp)
      (fun n hn t => by simp [hn.symm]),
      h.selected_concat fun n => by simp⟩

end Listing

end TableStore

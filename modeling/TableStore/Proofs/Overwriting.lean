import TableStore.Proofs.NameMap
import TableStore.Proofs.Outcome
import TableStore.Storage

/-!
# Writing over documents

A document that is written over one of its name is written as if that one were not there, and
whether it can be written does not depend on what it says. So of several documents of one name only
the last counts.
-/
namespace TableStore

namespace Directory

variable {dir dir' : Directory} {p : Place} {name file document : String}

theorem location_put (dir : Directory) (p : Place) (file document : String) :
    (dir.put p file document).location = dir.location := by
  cases p <;> rfl

/-- The directories are in one place and have their folders in the same places. -/
structure SameFolders (dir dir' : Directory) : Prop where
  location : dir'.location = dir.location
  folders : ∀ p name q,
    dir'.occupant? p name = some (.folder q) ↔ dir.occupant? p name = some (.folder q)

/-- Where no folder is in the way of a file, the folders are the same once it is written. -/
theorem sameFolders_put (hp : ∀ q, dir.occupant? p file ≠ some (.folder q)) (document : String) :
    dir.SameFolders (dir.put p file document) := by
  have helsewhere : ∀ (dir : Directory) p name q, dir.elsewhere? p name ≠ some (.folder q) := by
    intro dir p name q h
    rw [elsewhere?] at h
    split at h <;> cases h
  refine ⟨location_put dir p file document, fun q name r => ?_⟩
  cases q with
  | inside =>
    cases p with
    | inside =>
      rw [occupant?, put, NameMap.get?_insert]
      split
      · rename_i he
        subst he
        exact iff_of_false (by simp) (hp r)
      · rfl
    | below folder => rfl
    | above names => rfl
  | below folder => exact iff_of_false (helsewhere _ _ _ _) (helsewhere _ _ _ _)
  | above names =>
    rw [occupant?, occupant?, location_put, placeOf, location_put, placeOf]
    split
    · rfl
    · exact iff_of_false (helsewhere _ _ _ _) (helsewhere _ _ _ _)

namespace SameFolders

theorem symm (h : dir.SameFolders dir') : dir'.SameFolders dir :=
  ⟨h.location.symm, fun p name q => (h.folders p name q).symm⟩

theorem enter (h : dir.SameFolders dir') {q r : Place} (he : dir.enter q name = .ok r) :
    dir'.enter q name = .ok r := by
  have hparent : dir'.parent q = dir.parent q := by
    cases q <;> simp only [parent, placeOf, h.location]
  unfold Directory.enter at he ⊢
  split at he
  · rename_i hl
    rw [if_pos hl]
    exact he
  · rename_i hl
    rw [if_neg hl]
    split at he
    · rename_i hd
      rw [if_pos hd, hparent]
      exact he
    · rename_i hd
      rw [if_neg hd]
      split at he
      · cases he
      · rename_i hs
        rw [if_neg hs]
        split at he
        · rename_i ho
          rw [(h.folders _ _ _).2 ho]
          exact he
        · cases he
        · cases he

theorem foldlM_enter (h : dir.SameFolders dir') {names : List String} {q r : Place}
    (he : names.foldlM dir.enter q = .ok r) : names.foldlM dir'.enter q = .ok r := by
  induction names generalizing q with
  | nil => exact he
  | cons name names ih =>
    rw [List.foldlM_cons] at he ⊢
    obtain ⟨q', hq, he⟩ := bind_eq_ok_iff.1 he
    rw [h.enter hq, ok_bind]
    exact ih he

theorem locate (h : dir.SameFolders dir') {r : Place × String} (hl : dir.locate name = .ok r) :
    dir'.locate name = .ok r := by
  have hs : dir'.pathSize (fileName name) = dir.pathSize (fileName name) := by
    rw [pathSize, pathSize, h.location]
  unfold Directory.locate at hl ⊢
  rw [hs, placeOf, h.location]
  dsimp only at hl ⊢
  split at hl
  · cases hl
  · rename_i hz
    rw [if_neg hz]
    split at hl
    · cases hl
    · rename_i hlong
      rw [if_neg hlong]
      obtain ⟨place, hplace, hl⟩ := bind_eq_ok_iff.1 hl
      rw [placeOf] at hplace
      rw [h.foldlM_enter hplace]
      exact hl

theorem locate_eq_ok_iff (h : dir.SameFolders dir') {r : Place × String} :
    dir'.locate name = .ok r ↔ dir.locate name = .ok r :=
  ⟨h.symm.locate, h.locate⟩

end SameFolders

/-- A document is saved where its name leads, if no folder is there. -/
theorem save_eq_ok_iff : dir.save name document = .ok dir' ↔
    ∃ p file, dir.locate name = .ok (p, file) ∧ (∀ q, dir.occupant? p file ≠ some (.folder q)) ∧
      dir' = dir.put p file document := by
  rw [save, bind_eq_ok_iff]
  constructor
  · rintro ⟨⟨p, file⟩, hl, h⟩
    dsimp only at h
    split at h
    · cases h
    · rename_i ho
      cases h
      exact ⟨p, file, hl, fun q hq => ho q hq, rfl⟩
  · rintro ⟨p, file, hl, ho, rfl⟩
    refine ⟨(p, file), hl, ?_⟩
    dsimp only
    split
    · rename_i hq
      exact absurd hq (ho _)
    · rfl

theorem sameFolders_save (h : dir.save name document = .ok dir') : dir.SameFolders dir' := by
  obtain ⟨p, file, -, ho, rfl⟩ := save_eq_ok_iff.1 h
  exact sameFolders_put ho document

theorem put_put (dir : Directory) (p : Place) (file document document' : String) :
    (dir.put p file document).put p file document' = dir.put p file document' := by
  cases p with
  | inside => rw [put, put, put, NameMap.insert_insert]
  | below folder =>
    dsimp only [put]
    rw [List.insert_of_mem (List.mem_insert_self ..)]
  | above names =>
    dsimp only [put]
    rw [List.insert_of_mem (List.mem_insert_self ..)]

/-- What is written over a document is written as if the document were not there. -/
theorem save_of_save (h : dir.save name document = .ok dir') (document' : String) :
    dir'.save name document' = dir.save name document' := by
  obtain ⟨p, file, hl, ho, rfl⟩ := save_eq_ok_iff.1 h
  have hs := sameFolders_put ho document
  have ho' : ∀ q, (dir.put p file document).occupant? p file ≠ some (.folder q) := fun q hq =>
    ho q ((hs.folders p file q).1 hq)
  rw [save_eq_ok_iff.2 ⟨p, file, hl, ho, rfl⟩, save_eq_ok_iff.2 ⟨p, file, hs.locate hl, ho', rfl⟩,
    put_put]

/-- Which document it is makes no difference to whether it can be written. -/
theorem save_eq_error {e : StorageError} (h : dir.save name document = .error e)
    (document' : String) : dir.save name document' = .error e := by
  unfold save at h ⊢
  rcases bind_eq_error_iff.1 h with h | ⟨⟨place, file⟩, hl, h⟩
  · rw [h]
    rfl
  · rw [hl, ok_bind]
    dsimp only at h ⊢
    split at h
    · exact h
    · cases h

end Directory

variable {d e : Database}

theorem Store.save_of_save {s s' : Store} (hn : d.name = e.name) (h : s.save d = .ok s') :
    s'.save e = s.save e := by
  cases s with
  | memory docs =>
    cases h
    rw [Store.save, Store.save, hn, NameMap.insert_insert]
  | directory dir =>
    obtain ⟨dir', hd, rfl⟩ := map_eq_ok_iff.1 h
    rw [hn] at hd
    rw [Store.save, Store.save, Directory.save_of_save hd]

theorem Store.save_eq_error {s : Store} {x : StorageError} (hn : d.name = e.name)
    (h : s.save d = .error x) : s.save e = .error x := by
  cases s with
  | memory docs => cases h
  | directory dir =>
    have hd := map_eq_error_iff.1 h
    rw [hn] at hd
    rw [Store.save, Directory.save_eq_error hd]
    rfl

namespace Storage

variable {st : Storage}

/-- What becomes of the store when a document is to be saved. -/
def saved (st : Storage) (d : Database) : Except StorageError Store :=
  match st.faults.save d.name with
  | some x => .error x
  | none => st.store.save d

theorem save_eq_settle (st : Storage) (d : Database) :
    st.save d = st.settle (.save d.name) (st.saved d) := rfl

theorem saved_eq_error {x : StorageError} (hn : d.name = e.name) (h : st.saved d = .error x) :
    st.saved e = .error x := by
  unfold saved at h ⊢
  rw [hn] at h
  split at h
  · exact h
  · exact Store.save_eq_error hn h

theorem saved_eq_ok {s : Store} (h : st.saved d = .ok s) : st.store.save d = .ok s := by
  unfold saved at h
  split at h
  · cases h
  · exact h

theorem saved_of_save (hn : d.name = e.name) (faults : Faults) :
    { (st.save d).1 with faults := faults }.saved e = { st with faults := faults }.saved e := by
  rw [save_eq_settle]
  cases h : st.saved d with
  | error x => rfl
  | ok s =>
    unfold saved
    dsimp only [settle]
    rw [Store.save_of_save hn (saved_eq_ok h)]

theorem saved_save (hn : d.name = e.name) : (st.save d).1.saved e = st.saved e := by
  have hf : { (st.save d).1 with faults := st.faults } = (st.save d).1 := by
    rw [save_eq_settle]
    cases st.saved d <;> rfl
  rw [← hf]
  exact saved_of_save hn st.faults

theorem exists_saved {s : Store} (hn : d.name = e.name) (h : st.saved e = .ok s) :
    ∃ s', st.saved d = .ok s' := by
  cases hd : st.saved d with
  | error x =>
    rw [saved_eq_error hn hd] at h
    cases h
  | ok s' => exact ⟨s', rfl⟩

theorem save_snd (hn : d.name = e.name) : (st.save d).2 = (st.save e).2 := by
  rw [save_eq_settle, save_eq_settle]
  cases he : st.saved e with
  | error x =>
    rw [saved_eq_error hn.symm he]
    rfl
  | ok s =>
    obtain ⟨s', hs⟩ := exists_saved hn he
    rw [hs]
    rfl

/-- Of two documents of one name the second decides what is stored. -/
theorem save_save {d' : Database} (hd : d.name = e.name) (hd' : d'.name = e.name) :
    (st.save d).1.save e = (st.save d').1.save e := by
  rw [save_eq_settle (st.save d).1, save_eq_settle (st.save d').1, saved_save hd, saved_save hd',
    save_eq_settle, save_eq_settle, hd, hd']
  cases he : st.saved e with
  | error x => rw [saved_eq_error hd.symm he, saved_eq_error hd'.symm he]
  | ok s =>
    obtain ⟨s', hs⟩ := exists_saved hd he
    obtain ⟨s'', hs'⟩ := exists_saved hd' he
    rw [hs, hs']
    rfl

/-- A document that is stored as it is already is stored to no effect. -/
theorem store_save_again (h : (st.save d).2 = .ok ()) (faults : Faults) :
    ({ (st.save d).1 with faults := faults }.save d).1.store = (st.save d).1.store := by
  cases hs : st.saved d with
  | error x =>
    rw [save_eq_settle, hs] at h
    cases h
  | ok s =>
    have hstored : (st.save d).1.store = s := by
      rw [save_eq_settle, hs]
      rfl
    rw [save_eq_settle { (st.save d).1 with faults := faults }]
    cases hagain : { (st.save d).1 with faults := faults }.saved d with
    | error x => rfl
    | ok s' =>
      have hsave := saved_eq_ok hs
      have hresave := saved_eq_ok hagain
      dsimp only at hresave
      rw [hstored, Store.save_of_save rfl hsave, hsave] at hresave
      cases hresave
      exact hstored.symm

theorem save_save_snd (hn : d.name = e.name) : ((st.save d).1.save e).2 = (st.save e).2 := by
  rw [save_eq_settle (st.save d).1, saved_save hn, save_eq_settle st e]
  cases st.saved e <;> rfl

end Storage

end TableStore

import ChangeGate.Store.Directory

/-! Truth values in the stores. A value that was written is read back, its key was absent before,
and it stays while others write. This holds of the store in memory, whoever writes to it, and of a
directory that nobody else touches. -/

namespace ChangeGate

namespace Store

variable {σ : Type}

theorem getFlag_of_get {store : Store σ} {s : σ} {key : String} {b : Bool}
    (h : store.get s key = .ok (.bool b)) : store.getFlag s key = .ok b := by
  simp only [getFlag, h]
  rfl

theorem get_of_getFlag {store : Store σ} {s : σ} {key : String} {b : Bool}
    (h : store.getFlag s key = .ok b) : store.get s key = .ok (.bool b) := by
  simp only [getFlag] at h
  cases hGet : store.get s key with
  | error e => rw [hGet] at h; cases h
  | ok value =>
      rw [hGet] at h
      cases value with
      | bool b' =>
          cases (show (.ok b' : Except Error Bool) = .ok b from h)
          rfl
      | _ => cases h

theorem check_of_getFlag {store : Store σ} {s : σ} {key : String} {b : Bool}
    (h : store.getFlag s key = .ok b) : store.check s key = .ok (Verdict.ofChanges b) := by
  simp only [check, h]
  rfl

/-- The gate answers only if there is a truth value, and goes by it. -/
theorem getFlag_of_check {store : Store σ} {s : σ} {key : String} {verdict : Verdict}
    (h : store.check s key = .ok verdict) :
    ∃ b, store.getFlag s key = .ok b ∧ Verdict.ofChanges b = verdict := by
  cases hFlag : store.getFlag s key with
  | error e =>
      simp only [check, hFlag] at h
      cases h
  | ok b =>
      rw [check_of_getFlag hFlag] at h
      exact ⟨b, rfl, Except.ok.inj h⟩

theorem getFlag_of_check_error {store : Store σ} {s : σ} {key : String} {e : Error}
    (h : store.check s key = .error e) : store.getFlag s key = .error e := by
  cases hFlag : store.getFlag s key with
  | error e' =>
      simp only [check, hFlag] at h
      exact congrArg _ (Except.error.inj h)
  | ok b =>
      rw [check_of_getFlag hFlag] at h
      cases h

/-- What runs count on: a truth value under a key is written once and read back, and others neither
change it nor take a value away. -/
structure KeepsFlag (store : Store σ) (others : σ → σ → Prop) (key : String) : Prop where
  absent_of_put : ∀ {s b}, (store.putFlag s key b).1 = .ok () →
    store.get s key = .error (.decisionNotFound key)
  getFlag_put : ∀ {s b}, (store.putFlag s key b).1 = .ok () →
    store.getFlag (store.putFlag s key b).2 key = .ok b
  kept : ∀ {s t b}, others s t → store.getFlag s key = .ok b → store.getFlag t key = .ok b
  absent_before : ∀ {s t}, others s t → store.get t key = .error (.decisionNotFound key) →
    store.get s key = .error (.decisionNotFound key)

theorem get?_of_memory_get {t : Table Json} {key : String} {value : Json} :
    memory.get t key = .ok value ↔ t.get? key = some value := by
  simp only [memory]
  cases t.get? key <;> simp

theorem get?_of_memory_absent {t : Table Json} {key : String} :
    memory.get t key = .error (.decisionNotFound key) ↔ t.get? key = none := by
  simp only [memory]
  cases t.get? key <;> simp

/-- A write to the store in memory leaves a value under the keys that had one. -/
theorem memory_get_put {t : Table Json} {key key' : String} {value value' : Json}
    (h : memory.get t key = .ok value) :
    memory.get (memory.put t key' value').2 key = .ok value := by
  rw [get?_of_memory_get] at h ⊢
  simp only [memory]
  split
  · exact h
  · next hFree =>
      have hNe : key ≠ key' := by
        rintro rfl
        simp [Table.contains, h] at hFree
      rw [Table.get?_insert_of_ne t value' hNe, h]

theorem memory_keepsFlag {others : Table Json → Table Json → Prop} (key : String)
    (hOthers : ∀ s t, others s t → ∃ key value, t = (memory.put s key value).2) :
    memory.KeepsFlag others key where
  absent_of_put := by
    intro s b h
    rw [get?_of_memory_absent]
    simp only [putFlag, memory] at h
    split at h
    · cases h
    · next hFree => simpa [Table.contains] using hFree
  getFlag_put := by
    intro s b h
    refine getFlag_of_get ?_
    rw [get?_of_memory_get]
    simp only [putFlag, memory] at h ⊢
    split at h
    · cases h
    · next hFree => simp [hFree]
  kept := by
    intro s t b change h
    obtain ⟨key', value', rfl⟩ := hOthers s t change
    exact getFlag_of_get (memory_get_put (get_of_getFlag h))
  absent_before := by
    intro s t change h
    obtain ⟨key', value', rfl⟩ := hOthers s t change
    rw [get?_of_memory_absent] at h ⊢
    simp only [memory] at h
    split at h
    · exact h
    · next hFree =>
        by_cases hKey : key = key'
        · subst hKey
          simp at h
        · rwa [Table.get?_insert_of_ne s value' hKey] at h

end Store

namespace Directory

/-- The file of a key is never a staging file: its name does not start with a point. -/
theorem entryName_ne_stagingName {key : String} (hKey : isKey key = true) (other : String)
    (tag : Uuid) : entryName key ≠ stagingName other tag := by
  intro h
  simp only [isKey, Bool.and_eq_true, Bool.not_eq_true', String.startsWith_string_eq_false_iff]
    at hKey
  obtain ⟨⟨hNonempty, hPoint⟩, -⟩ := hKey
  have hChars := congrArg String.toList h
  simp only [entryName, stagingName, String.toList_append] at hChars
  cases hFirst : key.toList with
  | nil =>
      have hEmpty : key = "" := String.toList_eq_nil_iff.mp hFirst
      simp [hEmpty] at hNonempty
  | cons c rest =>
      rw [hFirst] at hChars
      have hPointFirst : c = '.' := (List.cons.inj hChars).1
      exact hPoint (by simp [hFirst, hPointFirst])

/-- The directory after the staging file of a write has been filled. -/
def staged (tag : Uuid) (files : Files) (key : String) (value : Json) : Files :=
  (files.insert (stagingName key tag) "").insert (stagingName key tag) value.sorted.compact

/-- What a whole write comes to where nobody else acts. -/
theorem put_some (tag : Uuid) (files : Files) {key : String} (value : Json)
    (hKey : isKey key = true) :
    put tag (some files) key value =
      if files.contains (entryName key) then
        (.error (.duplicateWrite key), some ((staged tag files key value).erase
          (stagingName key tag)))
      else
        (.ok (), some (((staged tag files key value).insert (entryName key)
          value.sorted.compact).erase (stagingName key tag))) := by
  have hNe := entryName_ne_stagingName hKey key tag
  have hFilled : (files.insert (stagingName key tag) "").contains (stagingName key tag) = true := by
    simp [Table.contains]
  have hStaged : (staged tag files key value).get? (stagingName key tag) =
      some value.sorted.compact := by
    simp [staged]
  have hEntry : (staged tag files key value).contains (entryName key) =
      files.contains (entryName key) := by
    simp only [Table.contains, staged, Table.get?_insert_of_ne _ _ hNe]
  simp only [put, hKey, if_true, Write.steps, Write.step, hFilled, link, Write.result?]
  rw [← staged, hStaged]
  simp only [hEntry]
  split <;> rfl

theorem put_none (tag : Uuid) {key : String} (value : Json) (hKey : isKey key = true) :
    put tag none key value = (.error (.io .notFound), none) := by
  simp only [put, hKey, if_true, Write.steps, Write.step, Write.result?]
  rfl

theorem parse?_bool (b : Bool) : Json.parse? (Json.bool b).sorted.compact = some (.bool b) := by
  cases b <;> rfl

end Directory

namespace Store

/-- A write to a directory that succeeds finds a key and a place that is free. -/
theorem free_of_directory_put {dir : Directory} {key : String} {value : Json}
    (h : (directory.put dir key value).1 = .ok ()) :
    Directory.isKey key = true ∧ ∃ files, dir = some files ∧
      files.contains (Directory.entryName key) = false := by
  have hKey : Directory.isKey key = true := by
    cases hKey : Directory.isKey key with
    | true => rfl
    | false => simp [directory, Directory.put, hKey] at h
  refine ⟨hKey, ?_⟩
  cases dir with
  | none =>
      simp only [directory, Directory.put_none _ _ hKey] at h
      cases h
  | some files =>
      refine ⟨files, rfl, ?_⟩
      simp only [directory, Directory.put_some _ _ _ hKey] at h
      split at h
      · cases h
      · next hFree => simpa using hFree

theorem directory_keepsFlag {others : Directory → Directory → Prop} (key : String)
    (hOthers : ∀ s t, ¬ others s t) : directory.KeepsFlag others key where
  absent_of_put := by
    intro dir b h
    obtain ⟨hKey, files, rfl, hFree⟩ := free_of_directory_put h
    have hAbsent : files.get? (Directory.entryName key) = none := by
      simpa [Table.contains] using hFree
    simp [directory, Directory.get, hKey, hAbsent]
  getFlag_put := by
    intro dir b h
    obtain ⟨hKey, files, rfl, hFree⟩ := free_of_directory_put h
    refine getFlag_of_get ?_
    have hNe := Directory.entryName_ne_stagingName hKey key (Uuid.ofNat 0)
    simp [putFlag, directory, Directory.put_some _ _ _ hKey, hFree, Directory.get, hKey,
      Table.get?_erase_of_ne _ hNe, Directory.parse?_bool]
  kept := fun change => absurd change (hOthers _ _)
  absent_before := fun change => absurd change (hOthers _ _)

end Store

end ChangeGate

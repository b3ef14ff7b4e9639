import Mathlib.Data.Set.Basic
import Mathlib.Logic.Function.Basic
import ChangeGate.Proofs.Ident
import ChangeGate.Proofs.Store.WriteOnce

/-! The steps of writes to the directory of a run, between which others may act. Every write has a
staging file of its own, which is none of the files of the keys; those only ever come to be as
second names of staging files that are full. So a file of a key is whole from the moment that it is
there, and no step of any write changes it. -/

namespace ChangeGate.Directory

/-- Staging files of writes with different tags have different names, whatever their keys. -/
theorem tag_eq_of_stagingName {key other : String} {tag tag' : Uuid}
    (h : stagingName key tag = stagingName other tag') : tag = tag' := by
  have hChars := congrArg String.toList h
  simp only [stagingName, Uuid.text, String.toList_append, String.toList_ofList] at hChars
  have hTags := (List.append_inj' (List.append_cancel_right hChars)
    (by rw [Uuid.length_chars, Uuid.length_chars])).2
  exact Uuid.chars_injective hTags

/-- What reading the text of a file comes to. -/
def reading (text : String) : Except Error Json :=
  match Json.parse? text with
  | some value => .ok value
  | none => .error (.serialization "the entry is no JSON value")

theorem get_of_absent {dir : Directory} {key : String} (hKey : isKey key = true)
    (h : dir.bind (·.get? (entryName key)) = none) :
    get dir key = .error (.decisionNotFound key) := by
  simp [get, hKey, h]

theorem get_of_text {dir : Directory} {key text : String} (hKey : isKey key = true)
    (h : dir.bind (·.get? (entryName key)) = some text) : get dir key = reading text := by
  simp only [get, hKey, h, if_true]
  rfl

theorem reading_ne_absent (text key : String) : reading text ≠ .error (.decisionNotFound key) := by
  unfold reading
  split <;> simp

/-- Of the text of a value with whole numbers that value is read, unless it is nested too deep. -/
theorem reading_compact {value : Json} (whole : value.Whole) (ordered : value.Ordered) :
    reading value.sorted.compact = if value.depth ≤ 127 then .ok value
      else .error (.serialization "the entry is no JSON value") := by
  rw [reading, ordered.sorted_eq]
  by_cases hDepth : value.depth ≤ 127
  · rw [Json.parse?_compact whole ordered (Nat.lt_succ_of_le hDepth), if_pos hDepth]
  · rw [Json.parse?_compact_eq_none whole (Nat.lt_of_not_le hDepth), if_neg hDepth]

namespace Write

variable {w w' v : Write} {files files' : Files}

def staging (w : Write) : String := stagingName w.key w.tag

def entry (w : Write) : String := entryName w.key

/-- The file of the key has been made by this write. -/
def Linked (w : Write) : Prop := w.phase = .remove (.ok ()) ∨ w.phase = .done (.ok ())

/-- The write has begun and not yet returned. -/
def Busy (w : Write) : Prop :=
  w.phase = .fill ∨ w.phase = .link ∨ ∃ linked, w.phase = .remove linked

/-- What the files show of a write whose link has come out in some way. -/
def Shows (files : Files) (w : Write) : Except Error Unit → Prop
  | .ok () => files.get? w.entry = some w.text
  | .error e => e = .duplicateWrite w.key ∧ files.contains w.entry = true

/-- What the files show of a write, wherever it stands. -/
def Stands (files : Files) (w : Write) : Prop :=
  match w.phase with
  | .create => True
  | .fill => files.get? w.staging = some ""
  | .link => files.get? w.staging = some w.text
  | .remove linked => w.Shows files linked
  | .done result => w.Shows files result

/-- The steps of a write whose directory is there. Only one of them makes the file of a key. -/
inductive Move (w : Write) (files : Files) : Write → Files → Prop where
  | create (hPhase : w.phase = .create) :
      Move w files { w with phase := .fill } (files.insert w.staging "")
  | fill (hPhase : w.phase = .fill) :
      Move w files { w with phase := .link } (files.insert w.staging w.text)
  | publish (hPhase : w.phase = .link) (hFree : files.get? w.entry = none) :
      Move w files { w with phase := .remove (.ok ()) } (files.insert w.entry w.text)
  | refuse (hPhase : w.phase = .link) (hTaken : files.contains w.entry = true) :
      Move w files { w with phase := .remove (.error (.duplicateWrite w.key)) } files
  | remove {linked : Except Error Unit} (hPhase : w.phase = .remove linked) :
      Move w files { w with phase := .done linked } (files.erase w.staging)
  | rest {result : Except Error Unit} (hPhase : w.phase = .done result) : Move w files w files

/-- A write that finds its staging file as it left it takes one of these steps. -/
theorem Stands.exists_move (stands : w.Stands files) :
    ∃ files', (w.step (some files)).2 = some files' ∧
      w.Move files (w.step (some files)).1 files' := by
  obtain ⟨key, tag, text, phase⟩ := w
  cases phase with
  | create => exact ⟨_, rfl, .create rfl⟩
  | fill =>
      have hThere : files.contains (stagingName key tag) = true := by
        rw [Table.contains, show files.get? (stagingName key tag) = some "" from stands]
        rfl
      refine ⟨_, rfl, ?_⟩
      simp only [step, hThere, if_true]
      exact .fill rfl
  | link =>
      have hFull : files.get? (stagingName key tag) = some text := stands
      cases hEntry : files.contains (entryName key) with
      | true =>
          refine ⟨_, rfl, ?_⟩
          simp only [step, link, hFull, hEntry, if_true]
          exact .refuse rfl hEntry
      | false =>
          have hFree : files.get? (entryName key) = none := by simpa [Table.contains] using hEntry
          refine ⟨_, rfl, ?_⟩
          simp only [step, link, hFull, hEntry]
          exact .publish rfl hFree
  | remove linked => exact ⟨_, rfl, .remove rfl⟩
  | done result => exact ⟨_, rfl, .rest rfl⟩

section Move

variable (move : w.Move files w' files')

include move

theorem Move.eq_of_phase : w' = { w with phase := w'.phase } := by
  cases move <;> rfl

/-- No step changes a file of a key that is there. -/
theorem Move.entry_kept {key text : String} (hKey : isKey key = true)
    (h : files.get? (entryName key) = some text) : files'.get? (entryName key) = some text := by
  have hNe : entryName key ≠ w.staging := entryName_ne_stagingName hKey _ _
  cases move with
  | create hPhase => rwa [Table.get?_insert_of_ne _ _ hNe]
  | fill hPhase => rwa [Table.get?_insert_of_ne _ _ hNe]
  | publish hPhase hFree =>
      have hOther : entryName key ≠ w.entry := by
        intro hSame
        rw [hSame, hFree] at h
        cases h
      rwa [Table.get?_insert_of_ne _ _ hOther]
  | refuse hPhase hTaken => exact h
  | remove hPhase => rwa [Table.get?_erase_of_ne _ hNe]
  | rest hPhase => exact h

/-- A file of a key that is there was there before, or this write has just made it. -/
theorem Move.entry_origin {key text : String} (hKey : isKey key = true)
    (h : files'.get? (entryName key) = some text) :
    files.get? (entryName key) = some text ∨ (w.key = key ∧ w'.Linked ∧ ¬ w.Linked) := by
  have hNe : entryName key ≠ w.staging := entryName_ne_stagingName hKey _ _
  cases move with
  | create hPhase => exact .inl (by rwa [Table.get?_insert_of_ne _ _ hNe] at h)
  | fill hPhase => exact .inl (by rwa [Table.get?_insert_of_ne _ _ hNe] at h)
  | publish hPhase hFree =>
      by_cases hOwn : w.key = key
      · exact .inr ⟨hOwn, .inl rfl, by simp [Linked, hPhase]⟩
      · have hOther : entryName key ≠ w.entry := fun hSame => hOwn (entryName_injective hSame).symm
        exact .inl (by rwa [Table.get?_insert_of_ne _ _ hOther] at h)
  | refuse hPhase hTaken => exact .inl h
  | remove hPhase => exact .inl (by rwa [Table.get?_erase_of_ne _ hNe] at h)
  | rest hPhase => exact .inl h

/-- A step that makes no file of a key changes none. -/
theorem Move.entry_eq {key : String} (hKey : isKey key = true) (hOld : w'.Linked → w.Linked) :
    files'.get? (entryName key) = files.get? (entryName key) := by
  cases hBefore : files.get? (entryName key) with
  | some text => exact move.entry_kept hKey hBefore
  | none =>
      cases hAfter : files'.get? (entryName key) with
      | none => rfl
      | some text =>
          rcases move.entry_origin hKey hAfter with hThere | ⟨-, linked, hUnlinked⟩
          · rw [hBefore] at hThere
            cases hThere
          · exact absurd (hOld linked) hUnlinked

theorem Move.linked_mono (h : w.Linked) : w'.Linked := by
  cases move with
  | remove hPhase =>
      rcases h with h | h <;> rw [hPhase] at h <;> cases h
      exact .inr rfl
  | rest hPhase => exact h
  | _ hPhase => rcases h with h | h <;> rw [hPhase] at h <;> cases h

/-- A write links its file only where its key has none. -/
theorem Move.linked_cases (h : w'.Linked) : w.Linked ∨ files.get? w.entry = none := by
  cases move with
  | publish hPhase hFree => exact .inr hFree
  | remove hPhase =>
      rcases h with h | h <;> cases h
      exact .inl (.inl hPhase)
  | rest hPhase => exact .inl h
  | _ => rcases h with h | h <;> cases h

/-- A file that is there is a file of the key of this write, or its staging file while it has not
returned, or was there before. -/
theorem Move.name_origin {name : String} (h : files'.contains name = true) :
    name = w.entry ∨ (name = w.staging ∧ w'.Busy) ∨
      (files.contains name = true ∧ (name = w.staging → ¬ w.Busy)) := by
  have hOld : ∀ {other text}, name ≠ other → (files.insert other text).contains name = true →
      files.contains name = true := by
    intro other text hNe hThere
    rwa [Table.contains, Table.get?_insert_of_ne _ _ hNe] at hThere
  by_cases hStaging : name = w.staging
  · cases move with
    | create hPhase => exact .inr (.inl ⟨hStaging, .inl rfl⟩)
    | fill hPhase => exact .inr (.inl ⟨hStaging, .inr (.inl rfl)⟩)
    | publish hPhase hFree => exact .inr (.inl ⟨hStaging, .inr (.inr ⟨_, rfl⟩)⟩)
    | refuse hPhase hTaken => exact .inr (.inl ⟨hStaging, .inr (.inr ⟨_, rfl⟩)⟩)
    | remove hPhase =>
        rw [hStaging, Table.contains, Table.get?_erase_self] at h
        cases h
    | rest hPhase => exact .inr (.inr ⟨h, fun _ => by simp [Busy, hPhase]⟩)
  · have hKept : files.contains name = true ∨ name = w.entry := by
      cases move with
      | create hPhase => exact .inl (hOld hStaging h)
      | fill hPhase => exact .inl (hOld hStaging h)
      | publish hPhase hFree =>
          by_cases hEntry : name = w.entry
          · exact .inr hEntry
          · exact .inl (hOld hEntry h)
      | refuse hPhase hTaken => exact .inl h
      | remove hPhase =>
          rw [Table.contains, Table.get?_erase_of_ne _ hStaging] at h
          exact .inl h
      | rest hPhase => exact .inl h
    rcases hKept with hThere | hEntry
    · exact .inr (.inr ⟨hThere, fun hSame => absurd hSame hStaging⟩)
    · exact .inl hEntry

/-- A step leaves the staging files of writes with other tags alone. -/
theorem Move.staging_kept (hKey : isKey w.key = true) (hTag : v.tag ≠ w.tag) :
    files'.get? v.staging = files.get? v.staging := by
  have hStaging : v.staging ≠ w.staging := fun h => hTag (tag_eq_of_stagingName h)
  have hEntry : v.staging ≠ w.entry := (entryName_ne_stagingName hKey _ _).symm
  cases move with
  | create hPhase => exact Table.get?_insert_of_ne _ _ hStaging
  | fill hPhase => exact Table.get?_insert_of_ne _ _ hStaging
  | publish hPhase hFree => exact Table.get?_insert_of_ne _ _ hEntry
  | refuse hPhase hTaken => rfl
  | remove hPhase => exact Table.get?_erase_of_ne _ hStaging
  | rest hPhase => rfl

/-- What the files show of a write that has come out does not change. -/
theorem Shows.mono (hKey : isKey v.key = true) {linked : Except Error Unit}
    (shows_ : v.Shows files linked) : v.Shows files' linked := by
  cases linked with
  | ok => exact move.entry_kept hKey shows_
  | error e =>
      obtain ⟨text, hText⟩ := Option.isSome_iff_exists.mp shows_.2
      exact ⟨shows_.1, Option.isSome_iff_exists.mpr ⟨text, move.entry_kept hKey hText⟩⟩

/-- The writes with other tags stand where they stood. -/
theorem Stands.of_other (hKey : isKey w.key = true) (hKey' : isKey v.key = true)
    (hTag : v.tag ≠ w.tag) (stands : v.Stands files) : v.Stands files' := by
  unfold Stands at stands ⊢
  split at stands
  · trivial
  · rwa [move.staging_kept hKey hTag]
  · rwa [move.staging_kept hKey hTag]
  · exact Shows.mono move hKey' stands
  · exact Shows.mono move hKey' stands

theorem Move.stands (hKey : isKey w.key = true) (stands : w.Stands files) : w'.Stands files' := by
  have hNe : w.entry ≠ w.staging := entryName_ne_stagingName hKey _ _
  cases move with
  | create hPhase => exact Table.get?_insert_self _ _ _
  | fill hPhase => exact Table.get?_insert_self _ _ _
  | publish hPhase hFree => exact Table.get?_insert_self _ _ _
  | refuse hPhase hTaken => exact ⟨rfl, hTaken⟩
  | @remove linked hPhase =>
      have shows_ : w.Shows files linked := by
        rw [Stands, hPhase] at stands
        exact stands
      exact Shows.mono (.remove hPhase) hKey shows_
  | rest hPhase => exact stands

end Move

theorem phase_of_result? {result : Except Error Unit} (h : w.result? = some result) :
    w.phase = .done result := by
  unfold result? at h
  split at h
  · next hPhase => rw [hPhase, Option.some.inj h]
  · cases h

theorem Linked.result_eq {result : Except Error Unit} (linked : w.Linked)
    (h : w.result? = some result) : result = .ok () := by
  rcases linked with hPhase | hPhase <;> rw [phase_of_result? h] at hPhase <;> cases hPhase
  rfl

/-- A write that has returned has made the file of its key, or has found it there. -/
theorem Stands.result_cases (stands : w.Stands files) {result : Except Error Unit}
    (h : w.result? = some result) :
    (result = .ok () ∧ w.Linked ∨ result = .error (.duplicateWrite w.key) ∧ ¬ w.Linked) ∧
      files.contains w.entry = true := by
  have hPhase := phase_of_result? h
  have shows_ : w.Shows files result := by
    rw [Stands, hPhase] at stands
    exact stands
  cases result with
  | ok => exact ⟨.inl ⟨rfl, .inr hPhase⟩, Option.isSome_iff_exists.mpr ⟨_, shows_⟩⟩
  | error e =>
      obtain ⟨rfl, hThere⟩ := shows_
      exact ⟨.inr ⟨rfl, fun linked => nomatch linked.result_eq h⟩, hThere⟩

theorem Linked.get?_entry (linked : w.Linked) (stands : w.Stands files) :
    files.get? w.entry = some w.text := by
  rcases linked with hPhase | hPhase <;> rw [Stands, hPhase] at stands <;> exact stands

end Write

/-- A value that is to be put under a key, with the tag of the staging file. -/
structure Call where
  key : String
  value : Json
  tag : Uuid

namespace Call

def text (call : Call) : String := call.value.sorted.compact

/-- The write of a call at a phase. -/
def write (call : Call) (phase : Phase) : Write :=
  { key := call.key, tag := call.tag, text := call.text, phase }

end Call

/-- The directory of a run, and where the writes to it stand. -/
structure Traffic (ι : Type) where
  dir : Directory
  writes : ι → Write

variable {ι : Type}

namespace Traffic

variable [DecidableEq ι] (c : Traffic ι) (i : ι)

def step : Traffic ι where
  dir := ((c.writes i).step c.dir).2
  writes := Function.update c.writes i ((c.writes i).step c.dir).1

theorem writes_step_self : (c.step i).writes i = ((c.writes i).step c.dir).1 :=
  Function.update_self ..

theorem writes_step_of_ne {j : ι} (hNe : j ≠ i) : (c.step i).writes j = c.writes j :=
  Function.update_of_ne hNe ..

end Traffic

/-- Some writes, each of them that of a call, stand where the directory shows them to stand. -/
structure Stand (calls : ι → Call) (live : Set ι) (c : Traffic ι) (files : Files) : Prop where
  dir_eq : c.dir = some files
  write_eq : ∀ i ∈ live, ∃ phase, c.writes i = (calls i).write phase
  stands : ∀ i ∈ live, (c.writes i).Stands files

namespace Stand

variable {calls : ι → Call} {live : Set ι} {c : Traffic ι} {files : Files} {i : ι}

section

variable (stand : Stand calls live c files) (hLive : i ∈ live)

include stand hLive

theorem key_eq : (c.writes i).key = (calls i).key := by
  obtain ⟨phase, hWrite⟩ := stand.write_eq i hLive
  rw [hWrite]
  rfl

theorem tag_eq : (c.writes i).tag = (calls i).tag := by
  obtain ⟨phase, hWrite⟩ := stand.write_eq i hLive
  rw [hWrite]
  rfl

theorem text_eq : (c.writes i).text = (calls i).text := by
  obtain ⟨phase, hWrite⟩ := stand.write_eq i hLive
  rw [hWrite]
  rfl

/-- A write that has made the file of its key has put its whole text there. -/
theorem get?_of_linked (linked : (c.writes i).Linked) :
    files.get? (entryName (calls i).key) = some (calls i).text := by
  have hEntry := linked.get?_entry (stand.stands i hLive)
  rwa [Write.entry, stand.key_eq hLive, stand.text_eq hLive] at hEntry

end

/-- One of the writes takes a step, and all of them still stand where the directory shows it. -/
theorem step [DecidableEq ι] (hKeys : ∀ j ∈ live, isKey (calls j).key = true)
    (hTags : Function.Injective fun j => (calls j).tag) (stand : Stand calls live c files)
    (hLive : i ∈ live) :
    ∃ files', (c.writes i).Move files ((c.step i).writes i) files' ∧
      Stand calls live (c.step i) files' := by
  obtain ⟨files', hDir, move⟩ := (stand.stands i hLive).exists_move
  rw [← stand.dir_eq, ← c.writes_step_self i] at move
  rw [← stand.dir_eq] at hDir
  have hKey : ∀ j ∈ live, isKey (c.writes j).key = true := fun j hj => by
    rw [stand.key_eq hj]
    exact hKeys j hj
  refine ⟨files', move, hDir, fun j hj => ?_, fun j hj => ?_⟩
  · by_cases hSame : j = i
    · subst hSame
      obtain ⟨phase, hWrite⟩ := stand.write_eq j hj
      refine ⟨((c.step j).writes j).phase, ?_⟩
      rw [move.eq_of_phase, hWrite]
      rfl
    · rw [c.writes_step_of_ne i hSame]
      exact stand.write_eq j hj
  · by_cases hSame : j = i
    · subst hSame
      exact move.stands (hKey j hj) (stand.stands j hj)
    · rw [c.writes_step_of_ne i hSame]
      refine (stand.stands j hj).of_other move (hKey i hLive) (hKey j hj) ?_
      rw [stand.tag_eq hj, stand.tag_eq hLive]
      exact fun h => hSame (hTags h)

end Stand

end ChangeGate.Directory

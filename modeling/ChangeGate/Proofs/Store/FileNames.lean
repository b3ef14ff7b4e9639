import ChangeGate.FileTree
import ChangeGate.Proofs.Store.WriteSteps
import ChangeGate.Proofs.Text.Pieces

/-! Which files the directory of a run is asked for. A text that is no key is refused, and nothing
is looked at. The files of a key lie in the directory itself, whatever the key; no two keys share a
file, and no two writes a staging file. -/

namespace ChangeGate.Directory

/-- The characters of keys: letters and digits, and three marks. -/
def KeyChar (c : Char) : Prop :=
  ('A' ≤ c ∧ c ≤ 'Z') ∨ ('a' ≤ c ∧ c ≤ 'z') ∨ ('0' ≤ c ∧ c ≤ '9') ∨ c = '_' ∨ c = '-' ∨ c = '.'

/-- What keeps a text from being a key. -/
def Unfit (key : String) : Prop :=
  key = "" ∨ key.toList.head? = some '.' ∨ ∃ c ∈ key.toList, ¬ KeyChar c

instance (c : Char) : Decidable (KeyChar c) := inferInstanceAs (Decidable (_ ∨ _))

instance (key : String) : Decidable (Unfit key) :=
  have := List.decidableBEx (fun c => ¬ KeyChar c) key.toList
  inferInstanceAs (Decidable (_ ∨ _ ∨ _))

/-- A name leads from any directory to something that lies in it directly. -/
structure IsChild (name : String) : Prop where
  slash : '/' ∉ name.toList
  not_here : name ≠ "."
  not_above : name ≠ ".."
  names_eq : ∀ directory,
    FileTree.names directory name = FileTree.names directory "." ++ [name]

def text? (dir : Directory) (name : String) : Option String := dir.bind (·.get? name)

/-- Two directories are the same under some names. -/
structure AgreeOn (names : Set String) (dir other : Directory) : Prop where
  isSome_eq : other.isSome = dir.isSome
  text_eq : ∀ name ∈ names, other.text? name = dir.text? name

/-- What is done with a directory is done under some names: under all others it stays as it was, and
what is there makes no difference. -/
structure WorksOn {α : Type} (names : Set String) (act : Directory → α × Directory) : Prop where
  isSome_eq : ∀ dir, (act dir).2.isSome = dir.isSome
  text_eq : ∀ dir, ∀ name ∉ names, (act dir).2.text? name = dir.text? name
  agrees : ∀ dir other, AgreeOn names dir other →
    (act other).1 = (act dir).1 ∧ AgreeOn names (act dir).2 (act other).2

section Keys

variable {key : String} {c : Char}

theorem isKeyChar_iff : isKeyChar c = true ↔ KeyChar c := by
  have hAlphanum : c.isAlphanum = ((decide ('A' ≤ c ∧ c ≤ 'Z') ||
      (decide ('a' ≤ c) && decide (c ≤ 'z'))) || (decide ('0' ≤ c) && decide (c ≤ '9'))) := rfl
  simp only [isKeyChar, KeyChar, hAlphanum, Bool.or_eq_true, Bool.and_eq_true, beq_iff_eq,
    decide_eq_true_eq, or_assoc]

/-- The check for keys refuses what is unfit, and nothing else. -/
theorem isKey_eq_false_iff : isKey key = false ↔ Unfit key := by
  have hPoint : key.startsWith "." = true ↔ key.toList.head? = some '.' := by
    rw [String.startsWith_string_iff]
    cases key.toList <;> simp [eq_comm]
  have hOther : key.toList.all isKeyChar = false ↔ ∃ c ∈ key.toList, ¬ KeyChar c := by
    simp [← isKeyChar_iff]
  rw [isKey, Bool.and_eq_false_iff, Bool.and_eq_false_iff, Bool.not_eq_false', Bool.not_eq_false',
    hPoint, hOther, String.isEmpty_iff, Unfit, or_assoc]

theorem isKey_iff : isKey key = true ↔ ¬ Unfit key := by
  rw [← isKey_eq_false_iff, Bool.not_eq_false]

end Keys

section Children

variable {key name : String}

/-- A name without a slash is one part of a path, seen from where the path starts. -/
theorem names_of_slash (hSlash : '/' ∉ name.toList) (directory : String) :
    FileTree.names directory name =
      FileTree.follow (FileTree.follow [] (FileTree.parts directory)) [name] := by
  have hRelative : name.startsWith "/" = false := by
    rw [String.startsWith_string_eq_false_iff]
    exact fun hPrefix => hSlash (hPrefix.subset (by decide))
  rw [FileTree.names, hRelative, FileTree.parts, FileTree.parts, Text.pieces_of_notMem hSlash,
    List.map_singleton, String.ofList_toList]
  rfl

theorem isChild_of_long (hSlash : '/' ∉ name.toList) (hLong : 2 < name.length) : IsChild name := by
  have hSome : name.isEmpty = false := by
    rw [Bool.eq_false_iff, ne_eq, String.isEmpty_iff]
    rintro rfl
    exact absurd hLong (by decide)
  have hHere : name ≠ "." := by
    rintro rfl
    exact absurd hLong (by decide)
  have hAbove : name ≠ ".." := by
    rintro rfl
    exact absurd hLong (by decide)
  refine ⟨hSlash, hHere, hAbove, fun directory => ?_⟩
  rw [names_of_slash hSlash, names_of_slash (by decide)]
  simp [FileTree.follow, hSome, hHere, hAbove]

theorem slash_notMem_of_keyChar {cs : List Char} (h : ∀ c ∈ cs, KeyChar c) : '/' ∉ cs := by
  intro hMem
  have hSlash : ¬ KeyChar '/' := by decide
  exact hSlash (h _ hMem)

theorem slash_notMem_chars (u : Uuid) : '/' ∉ u.chars := by
  intro hMem
  rcases Uuid.mem_grouped (Uuid.chars_eq u ▸ hMem) with hHyphen | hDigit
  · exact absurd hHyphen (by decide)
  · obtain ⟨d, hSmall, hSlash⟩ := Text.exists_of_mem_hexDigits hDigit
    have hTried : ∀ d < 16, '/' ≠ Text.hexDigit d := by decide
    exact hTried d hSmall hSlash

theorem keyChar_of_mem (hFit : ¬ Unfit key) : ∀ c ∈ key.toList, KeyChar c := by
  intro c hMem
  by_contra hOther
  exact hFit (.inr (.inr ⟨c, hMem, hOther⟩))

theorem isChild_entryName (hFit : ¬ Unfit key) : IsChild (entryName key) := by
  refine isChild_of_long ?_ ?_
  · rw [entryName, String.toList_append, List.mem_append, not_or]
    exact ⟨slash_notMem_of_keyChar (keyChar_of_mem hFit), by decide⟩
  · have hLength : ".json".length = 5 := by decide
    rw [entryName, String.length_append, hLength]
    omega

theorem isChild_stagingName (hFit : ¬ Unfit key) (tag : Uuid) : IsChild (stagingName key tag) := by
  refine isChild_of_long ?_ ?_
  · have hTag : '/' ∉ tag.text.toList := by
      rw [Uuid.text, String.toList_ofList]
      exact slash_notMem_chars tag
    simp only [stagingName, String.toList_append, List.mem_append, not_or]
    have hKey := slash_notMem_of_keyChar (keyChar_of_mem hFit)
    exact ⟨⟨⟨⟨by decide, hKey⟩, by decide⟩, hTag⟩, by decide⟩
  · have hLength : ".tmp".length = 4 := by decide
    rw [stagingName, String.length_append, hLength]
    omega

end Children

section Work

variable {α β : Type} {names : Set String} {act : Directory → α × Directory}
  {files files' : Files}

theorem get?_insert_congr (h : ∀ name ∈ names, files'.get? name = files.get? name)
    (target text : String) :
    ∀ name ∈ names,
      (files'.insert target text).get? name = (files.insert target text).get? name := by
  intro name hMem
  by_cases hSame : name = target
  · rw [hSame, Table.get?_insert_self, Table.get?_insert_self]
  · rw [Table.get?_insert_of_ne _ _ hSame, Table.get?_insert_of_ne _ _ hSame, h name hMem]

theorem get?_erase_congr (h : ∀ name ∈ names, files'.get? name = files.get? name)
    (target : String) :
    ∀ name ∈ names, (files'.erase target).get? name = (files.erase target).get? name := by
  intro name hMem
  by_cases hSame : name = target
  · rw [hSame, Table.get?_erase_self, Table.get?_erase_self]
  · rw [Table.get?_erase_of_ne _ hSame, Table.get?_erase_of_ne _ hSame, h name hMem]

/-- Work on a directory is work on its files, if it is there. -/
theorem WorksOn.of_files {absent : α} {result : Files → α} {after : Files → Files}
    (hNone : act none = (absent, none))
    (hSome : ∀ files, act (some files) = (result files, some (after files)))
    (hStays : ∀ files, ∀ name ∉ names, (after files).get? name = files.get? name)
    (hAgrees : ∀ files files', (∀ name ∈ names, files'.get? name = files.get? name) →
      result files' = result files ∧
        ∀ name ∈ names, (after files').get? name = (after files).get? name) :
    WorksOn names act where
  isSome_eq dir := by
    cases dir with
    | none => rw [hNone]
    | some files =>
        rw [hSome]
        rfl
  text_eq dir name hOther := by
    cases dir with
    | none => rw [hNone]
    | some files =>
        rw [hSome]
        exact hStays files name hOther
  agrees dir other agree := by
    cases dir with
    | none =>
        cases other with
        | none =>
            rw [hNone]
            exact ⟨rfl, agree⟩
        | some files' => cases agree.isSome_eq
    | some files =>
        obtain ⟨files', rfl⟩ := Option.isSome_iff_exists.mp agree.isSome_eq
        obtain ⟨hResult, hAfter⟩ := hAgrees files files' agree.text_eq
        rw [hSome, hSome]
        exact ⟨hResult, rfl, hAfter⟩

theorem WorksOn.map (works : WorksOn names act) (f : α → β) :
    WorksOn names fun dir => (f (act dir).1, (act dir).2) where
  isSome_eq := works.isSome_eq
  text_eq := works.text_eq
  agrees dir other agree := by
    obtain ⟨hResult, hAfter⟩ := works.agrees dir other agree
    exact ⟨congrArg f hResult, hAfter⟩

/-- Work that goes on with what came of the work before. -/
theorem WorksOn.bind (works : WorksOn names act) (next : α → Directory → β × Directory)
    (hNext : ∀ dir, WorksOn names (next (act dir).1)) :
    WorksOn names fun dir => next (act dir).1 (act dir).2 where
  isSome_eq dir := ((hNext dir).isSome_eq _).trans (works.isSome_eq dir)
  text_eq dir name hOther :=
    ((hNext dir).text_eq _ name hOther).trans (works.text_eq dir name hOther)
  agrees dir other agree := by
    obtain ⟨hResult, hAfter⟩ := works.agrees dir other agree
    rw [hResult]
    exact (hNext dir).agrees _ _ hAfter

/-- Giving a file its second name changes nothing under others. -/
theorem get?_link_of_ne (w : Write) (files : Files) {name : String} (h : name ≠ entryName w.key) :
    (link w files).2.get? name = files.get? name := by
  unfold link
  split
  · rfl
  split
  · rfl
  · exact Table.get?_insert_of_ne _ _ h

theorem link_congr {w : Write} (h : ∀ name ∈ names, files'.get? name = files.get? name)
    (hEntry : entryName w.key ∈ names) (hStaging : stagingName w.key w.tag ∈ names) :
    (link w files').1 = (link w files).1 ∧
      ∀ name ∈ names, (link w files').2.get? name = (link w files).2.get? name := by
  unfold link
  rw [h _ hStaging, Table.contains, h _ hEntry, ← Table.contains]
  split
  · exact ⟨rfl, h⟩
  split
  · exact ⟨rfl, h⟩
  · exact ⟨rfl, get?_insert_congr h _ _⟩

/-- A step of a write is done under the names of its two files. -/
theorem Write.worksOn_step (w : Write) :
    WorksOn {entryName w.key, stagingName w.key w.tag} w.step := by
  obtain ⟨key, tag, text, phase⟩ := w
  have hNames : ∀ {name : String}, name ∉ ({entryName key, stagingName key tag} : Set String) →
      name ≠ entryName key ∧ name ≠ stagingName key tag := not_or.mp
  cases phase with
  | create =>
      refine .of_files rfl (fun _ => rfl) ?_ ?_
      · exact fun files name hOther => Table.get?_insert_of_ne _ _ (hNames hOther).2
      · exact fun files files' h => ⟨rfl, get?_insert_congr h _ _⟩
  | fill =>
      refine .of_files rfl (fun _ => rfl) ?_ ?_
      · intro files name hOther
        split
        · exact Table.get?_insert_of_ne _ _ (hNames hOther).2
        · rfl
      · intro files files' h
        refine ⟨rfl, ?_⟩
        rw [Table.contains, h _ (.inr rfl), ← Table.contains]
        split
        · exact get?_insert_congr h _ _
        · exact h
  | link =>
      refine .of_files rfl (fun _ => rfl) ?_ ?_
      · exact fun files name hOther => get?_link_of_ne _ _ (hNames hOther).1
      · intro files files' h
        have hLink := link_congr (w := ⟨key, tag, text, .link⟩) h (.inl rfl) (.inr rfl)
        exact ⟨congrArg (fun linked => Write.mk key tag text (.remove linked)) hLink.1, hLink.2⟩
  | remove linked =>
      refine .of_files rfl (fun _ => rfl) ?_ ?_
      · exact fun files name hOther => Table.get?_erase_of_ne _ (hNames hOther).2
      · exact fun files files' h => ⟨rfl, get?_erase_congr h _⟩
  | done result =>
      refine .of_files rfl (fun _ => rfl) (fun _ _ _ => rfl) ?_
      exact fun files files' h => ⟨rfl, h⟩

theorem Write.key_step (w : Write) (dir : Directory) : (w.step dir).1.key = w.key := by
  obtain ⟨key, tag, text, phase⟩ := w
  cases phase <;> cases dir <;> rfl

theorem Write.tag_step (w : Write) (dir : Directory) : (w.step dir).1.tag = w.tag := by
  obtain ⟨key, tag, text, phase⟩ := w
  cases phase <;> cases dir <;> rfl

/-- And so are any number of them. -/
theorem Write.worksOn_steps (w : Write) (n : Nat) :
    WorksOn {entryName w.key, stagingName w.key w.tag} fun dir => w.steps dir n := by
  induction n generalizing w with
  | zero => exact ⟨fun _ => rfl, fun _ _ _ => rfl, fun _ _ agree => ⟨rfl, agree⟩⟩
  | succ n ih =>
      refine w.worksOn_step.bind (fun v dir => v.steps dir n) fun dir => ?_
      have hRest := ih (w.step dir).1
      rwa [w.key_step, w.tag_step] at hRest

variable {key : String}

theorem worksOn_put (hKey : isKey key = true) (tag : Uuid) (value : Json) :
    WorksOn {entryName key, stagingName key tag} fun dir => put tag dir key value := by
  have works := (Write.mk key tag value.sorted.compact .create).worksOn_steps 4
  have hPut : (fun dir => put tag dir key value) = fun dir => _ := funext fun _ => if_pos hKey
  rw [hPut]
  exact works.map fun w => w.result?.getD (.ok ())

theorem worksOn_get (key : String) : WorksOn {entryName key} fun dir => (get dir key, dir) where
  isSome_eq _ := rfl
  text_eq _ _ _ := rfl
  agrees dir other agree := by
    have hText : other.bind (·.get? (entryName key)) = dir.bind (·.get? (entryName key)) :=
      agree.text_eq _ rfl
    refine ⟨?_, agree⟩
    dsimp only [get]
    rw [hText]

end Work

section Names

variable {key other : String} {tag tag' : Uuid}

/-- The name of a staging file tells its key and its tag, even if the key looks as if it had a tag
in it: all tags are of the same length. -/
theorem eq_of_stagingName (h : stagingName other tag' = stagingName key tag) :
    other = key ∧ tag' = tag := by
  obtain rfl := tag_eq_of_stagingName h
  have hChars := congrArg String.toList h
  simp only [stagingName, String.toList_append, List.append_cancel_right_eq,
    List.append_cancel_left_eq] at hChars
  exact ⟨String.toList_injective hChars, rfl⟩

theorem put_of_unfit (hUnfit : Unfit key) (tag : Uuid) (dir : Directory) (value : Json) :
    put tag dir key value = (.error (.invalidDecisionKey key), dir) := by
  rw [put, isKey_eq_false_iff.mpr hUnfit]
  rfl

theorem get_of_unfit (hUnfit : Unfit key) (dir : Directory) :
    get dir key = .error (.invalidDecisionKey key) := by
  rw [get, isKey_eq_false_iff.mpr hUnfit]
  rfl

/-- What is written under a key fails only because the key has a value or the directory is gone. -/
theorem put_ne_invalid (hFit : ¬ Unfit key) (tag : Uuid) (dir : Directory) (value : Json) :
    (put tag dir key value).1 ≠ .error (.invalidDecisionKey other) := by
  have hKey := isKey_iff.mpr hFit
  cases dir with
  | none =>
      rw [put_none tag value hKey]
      nofun
  | some files =>
      rw [put_some tag files value hKey]
      split <;> nofun

theorem get_ne_invalid (hFit : ¬ Unfit key) (dir : Directory) :
    get dir key ≠ .error (.invalidDecisionKey other) := by
  have hKey := isKey_iff.mpr hFit
  cases hText : dir.bind (·.get? (entryName key)) with
  | none =>
      rw [get_of_absent hKey hText]
      simp
  | some text =>
      rw [get_of_text hKey hText, reading]
      split <;> simp

end Names

/-- What the directory of a run is asked for under a key. -/
structure StaysInside (key : String) : Prop where
  /-- A text that is unfit is refused, and the directory is neither looked at nor changed. -/
  refused : Unfit key →
    (∀ tag dir value, put tag dir key value = (.error (.invalidDecisionKey key), dir)) ∧
      ∀ dir, get dir key = .error (.invalidDecisionKey key)
  /-- No other text is refused. -/
  taken : ¬ Unfit key →
    (∀ tag dir value other, (put tag dir key value).1 ≠ .error (.invalidDecisionKey other)) ∧
      ∀ dir other, get dir key ≠ .error (.invalidDecisionKey other)
  /-- A write is done under the names of the entry and the staging file, a read under that of the
  entry. -/
  works : ¬ Unfit key →
    (∀ tag value, WorksOn {entryName key, stagingName key tag} fun dir => put tag dir key value) ∧
      WorksOn {entryName key} fun dir => (get dir key, dir)
  /-- So is every step of a write, whatever others do between the steps. -/
  steps : ∀ w : Write, w.key = key → WorksOn {entryName key, stagingName key w.tag} w.step
  /-- The files lie in the directory itself. -/
  children : ¬ Unfit key → IsChild (entryName key) ∧ ∀ tag, IsChild (stagingName key tag)
  /-- Different keys have different entries, -/
  entries_differ : ∀ other, entryName other = entryName key → other = key
  /-- the entry is no staging file of any key, -/
  no_staging : ¬ Unfit key → ∀ other tag, stagingName other tag ≠ entryName key
  /-- and a staging file is that of one key and one tag. -/
  stagings_differ : ∀ other tag tag', stagingName other tag' = stagingName key tag →
    other = key ∧ tag' = tag

/-- Whatever the key, a run works on its own files in the directory, or on none. -/
theorem keys_stay_inside (key : String) : StaysInside key where
  refused hUnfit := ⟨put_of_unfit hUnfit, get_of_unfit hUnfit⟩
  taken hFit := ⟨fun tag dir value _ => put_ne_invalid hFit tag dir value,
    fun dir _ => get_ne_invalid hFit dir⟩
  works hFit := ⟨worksOn_put (isKey_iff.mpr hFit), worksOn_get key⟩
  steps w hKey := hKey ▸ w.worksOn_step
  children hFit := ⟨isChild_entryName hFit, isChild_stagingName hFit⟩
  entries_differ _ := entryName_injective
  no_staging hFit other tag := (entryName_ne_stagingName (isKey_iff.mpr hFit) other tag).symm
  stagings_differ _ _ _ := eq_of_stagingName

/-- A key with a tag in it, which the name of a staging file has too. -/
def taggedKey : String := "a." ++ (Uuid.ofNat 1).text

theorem sample_keys_inside :
    get none "../a" = .error (.invalidDecisionKey "../a") ∧ IsChild (entryName taggedKey) ∧
      stagingName "a" (.ofNat 1) ≠ entryName taggedKey ∧
      stagingName taggedKey (.ofNat 2) ≠ stagingName "a" (.ofNat 2) := by
  have hUnfit : Unfit "../a" := by decide
  have hFit : ¬ Unfit taggedKey := by decide
  have inside := keys_stay_inside taggedKey
  refine ⟨((keys_stay_inside "../a").refused hUnfit).2 none, (inside.children hFit).1,
    inside.no_staging hFit "a" _, fun hSame => ?_⟩
  have hKeys := ((keys_stay_inside "a").stagings_differ taggedKey _ _ hSame).1
  exact absurd hKeys (by decide)

end ChangeGate.Directory

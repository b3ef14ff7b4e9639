import ChangeGate.FileTree
import ChangeGate.Proofs.Text.Pieces
import ChangeGate.Proofs.Text.Utf8

/-! Files that are written. A file that has been written is read as it was written, as the way to it
leads through directories, which writing it leaves alone. A directory that has been made is empty;
so a file can be written to it, and if it cannot, the directory was there before. -/

namespace ChangeGate.FileTree

variable {t t' : FileTree} {directory path : String} {content : List UInt8} {target : Names}
  {e : Entry}

/-- Names lead to an entry if all names before lead to directories. -/
theorem walk_eq_ok_iff {done rest : Names} :
    t.walk done rest = .ok e ↔
      (∀ front, front <+: rest → front ≠ rest → t.entry? (done ++ front) = some .directory) ∧
        t.entry? (done ++ rest) = some e := by
  induction rest generalizing done with
  | nil =>
      rw [walk, List.append_nil]
      cases t.entry? done <;> simp
  | cons name rest ih =>
      have hStep : done ++ name :: rest = (done ++ [name]) ++ rest := by simp
      rw [walk, hStep]
      constructor
      · intro h
        split at h
        · next hHere =>
            obtain ⟨hWay, hEnd⟩ := ih.mp h
            refine ⟨fun front hPrefix hNe => ?_, hEnd⟩
            rcases List.prefix_cons_iff.mp hPrefix with rfl | ⟨front, rfl, hMore⟩
            · simpa using hHere
            · have hDirectory := hWay front hMore fun h => hNe (by rw [h])
              simpa using hDirectory
        · cases h
        · cases h
      · rintro ⟨hWay, hEnd⟩
        have hHere : t.entry? done = some .directory := by
          simpa using hWay [] List.nil_prefix (by simp)
        rw [hHere]
        refine ih.mpr ⟨fun front hPrefix hNe => ?_, hEnd⟩
        simpa using hWay (name :: front) (List.cons_prefix_cons.mpr ⟨rfl, hPrefix⟩)
          (by simpa using hNe)

/-- The names on the way have paths of their own. -/
theorem absolute_ne_of_ne {front rest : Names} (hPrefix : front <+: rest) (hNe : front ≠ rest)
    (hSome : front ≠ []) : absolute front ≠ absolute rest := by
  obtain ⟨back, rfl⟩ := hPrefix
  obtain ⟨name, more, rfl⟩ := List.exists_cons_of_ne_nil (show back ≠ [] by simpa using hNe)
  intro hEq
  have hLength := congrArg String.length hEq
  simp [absolute, hSome, String.join_append, String.join_cons] at hLength

theorem entry_set_self (hSome : target ≠ []) (e : Entry) :
    FileTree.entry? (t.set target e) target = some e := by
  simp [FileTree.entry?, set, hSome]

theorem entry_set_of_ne {front : Names} (hPrefix : front <+: target) (hNe : front ≠ target)
    (e : Entry) : FileTree.entry? (t.set target e) front = t.entry? front := by
  cases front with
  | nil => rfl
  | cons name more =>
      have hPaths := absolute_ne_of_ne hPrefix hNe (by simp)
      simp [FileTree.entry?, set, Table.get?_insert_of_ne _ _ hPaths]

/-- The names before the last are on the way. -/
theorem eq_or_prefix_dropLast {front : Names} (hPrefix : front <+: target) (hNe : front ≠ target)
    (hSome : target ≠ []) :
    front = target.dropLast ∨ front <+: target.dropLast ∧ front ≠ target.dropLast := by
  rw [← List.dropLast_concat_getLast hSome, List.prefix_concat_iff,
    List.dropLast_concat_getLast hSome] at hPrefix
  by_cases hLast : front = target.dropLast
  · exact .inl hLast
  · exact .inr ⟨hPrefix.resolve_left hNe, hLast⟩

/-- A file is written where the way to it leads through directories, and nothing else changes. -/
theorem of_write (h : t.write directory path content = .ok t') :
    path.isEmpty = false ∧ path.endsWith "/" = false ∧ names directory path ≠ [] ∧
      (∀ front, front <+: names directory path → front ≠ names directory path →
        t.entry? front = some .directory) ∧
      t' = t.set (names directory path) (.file content) := by
  have hPath : path.isEmpty = false := by
    cases hEmpty : path.isEmpty with
    | false => rfl
    | true => simp [write, hEmpty] at h
  have hSome : names directory path ≠ [] := by
    intro hNil
    have hRoot : t.walk [] [] = .ok .directory := rfl
    simp [write, hPath, hNil, hRoot] at h
  simp only [write, hPath, Bool.false_eq_true, if_false] at h
  split at h
  · cases h
  · next hThere =>
      split at h
      · cases h
      · next hEnd =>
          exact ⟨hPath, by simpa using hEnd, hSome, (walk_eq_ok_iff.mp hThere).1,
            (Except.ok.inj h).symm⟩
  · split at h
    · next hAbove =>
        split at h
        · cases h
        · next hEnd =>
            obtain ⟨hWay, hLast⟩ := walk_eq_ok_iff.mp hAbove
            refine ⟨hPath, by simpa using hEnd, hSome, fun front hPrefix hNe => ?_,
              (Except.ok.inj h).symm⟩
            rcases eq_or_prefix_dropLast hPrefix hNe hSome with rfl | ⟨hBefore, hEarlier⟩
            · exact hLast
            · exact hWay front hBefore hEarlier
    · cases h
    · cases h
  · cases h

/-- A file that has been written is read as it was written. -/
theorem read_of_write (h : t.write directory path content = .ok t') :
    t'.read directory path = .ok content := by
  obtain ⟨hPath, hEnd, hSome, hWay, rfl⟩ := of_write h
  have hWalk : (t.set (names directory path) (.file content)).walk [] (names directory path) =
      .ok (.file content) := by
    refine walk_eq_ok_iff.mpr ⟨fun front hPrefix hNe => ?_, entry_set_self hSome _⟩
    exact (entry_set_of_ne hPrefix hNe _).trans (hWay front hPrefix hNe)
  simp [read, lookup, hPath, hEnd, hWalk]

/-- A file that holds the bytes of a text is read as that text. -/
theorem readText_of_read {text : String}
    (h : t.read directory path = .ok (Text.Utf8.encode text.toList)) :
    t.readText directory path = .ok text := by
  simp only [readText, h, bind, Except.bind, Text.Utf8.strict?_encode, String.ofList_toList]

theorem readText_of_absent (h : t.exists? directory path = false) :
    ∃ fault, t.readText directory path = .error fault := by
  cases hLookup : t.lookup directory path with
  | ok e =>
      rw [exists?, hLookup] at h
      cases h
  | error fault => exact ⟨fault, by simp only [readText, read, hLookup]; rfl⟩

theorem absolute_append (hSome : target ≠ []) (more : Names) :
    absolute (target ++ more) = absolute target ++ String.join (more.map ("/" ++ ·)) := by
  simp [absolute, hSome, String.join_append]

/-- What further names lead to lies below. -/
theorem isBelow_append {more : Names} (hSome : target ≠ []) (hMore : more ≠ []) :
    isBelow (absolute target) (absolute (target ++ more)) = true := by
  obtain ⟨name, rest, rfl⟩ := List.exists_cons_of_ne_nil hMore
  rw [absolute_append hSome, isBelow, Bool.or_eq_true, String.startsWith_string_iff]
  refine .inr ?_
  simp [String.join_cons]

/-- What lies on the way does not lie below. -/
theorem isBelow_eq_false {front : Names} (hPrefix : front <+: target) (hNe : front ≠ target)
    (hSome : front ≠ []) : isBelow (absolute target) (absolute front) = false := by
  have hPaths := absolute_ne_of_ne hPrefix hNe hSome
  obtain ⟨more, rfl⟩ := hPrefix
  rw [absolute_append hSome] at hPaths ⊢
  rw [isBelow, Bool.or_eq_false_iff, String.startsWith_string_eq_false_iff]
  refine ⟨by simpa using hPaths, fun hStart => ?_⟩
  have hLength := hStart.length_le
  have hSlash : "/".toList.length = 1 := rfl
  simp only [String.toList_append, List.length_append, hSlash] at hLength
  omega

theorem entry_makeDirectory_self (hSome : target ≠ []) :
    FileTree.entry? (t.makeDirectory target) target = some .directory :=
  entry_set_self hSome _

theorem entry_makeDirectory_above {front : Names} (hPrefix : front <+: target)
    (hNe : front ≠ target) : FileTree.entry? (t.makeDirectory target) front = t.entry? front := by
  rw [makeDirectory, entry_set_of_ne hPrefix hNe]
  cases front with
  | nil => rfl
  | cons name rest =>
      have hKept := isBelow_eq_false hPrefix hNe (List.cons_ne_nil _ _)
      simp only [FileTree.entry?, List.isEmpty_cons, Bool.false_eq_true, if_false, remove]
      exact Table.get?_filterKeys_of_pos _ (by rw [hKept]; rfl)

/-- A directory that has been made is empty. -/
theorem entry_makeDirectory_below {more : Names} (hSome : target ≠ []) (hMore : more ≠ []) :
    FileTree.entry? (t.makeDirectory target) (target ++ more) = none := by
  have hBelow := isBelow_append hSome hMore
  have hNe : absolute (target ++ more) ≠ absolute target :=
    (absolute_ne_of_ne (List.prefix_append _ _) (by simpa using hMore) hSome).symm
  have hEmpty : (target ++ more).isEmpty = false := by simp [hSome]
  simp only [FileTree.entry?, hEmpty, Bool.false_eq_true, if_false, makeDirectory, set, remove]
  rw [Table.get?_insert_of_ne _ _ hNe]
  exact Table.get?_filterKeys_of_neg _ (by rw [hBelow]; rfl)

/-- Where directories have been made along names, these lead through directories; and either nothing
has changed, or there is nothing below. -/
theorem of_makeAlong {done rest : Names} (h : t.makeAlong done rest = .ok t') :
    (∀ front, front <+: done → t'.entry? front = t.entry? front) ∧
    (∀ front, front <+: rest → front ≠ [] → t'.entry? (done ++ front) = some .directory) ∧
    (t' = t ∨ ∀ more ≠ [], t'.entry? (done ++ rest ++ more) = none) := by
  induction rest generalizing t done with
  | nil =>
      cases h
      exact ⟨fun _ _ => rfl, fun front hPrefix hSome => absurd (List.prefix_nil.mp hPrefix) hSome,
        .inl rfl⟩
  | cons name rest ih =>
      have hTarget : done ++ [name] ≠ [] := by simp
      have hNames : ∀ more, done ++ name :: rest ++ more = done ++ [name] ++ rest ++ more := by simp
      -- what is so of the names from the next one on is so of all
      have hWay : ∀ {u : FileTree}, u.entry? (done ++ [name]) = some .directory →
          (∀ front, front <+: done ++ [name] → t'.entry? front = u.entry? front) →
          (∀ front, front <+: rest → front ≠ [] →
            t'.entry? (done ++ [name] ++ front) = some .directory) →
          ∀ front, front <+: name :: rest → front ≠ [] →
            t'.entry? (done ++ front) = some .directory := by
        intro u hHere hAbove hBelow front hPrefix hSome
        obtain ⟨more, rfl, hMore⟩ := (List.prefix_cons_iff.mp hPrefix).resolve_left hSome
        by_cases hLast : more = []
        · rw [hLast, hAbove _ List.prefix_rfl, hHere]
        · simpa using hBelow more hMore hLast
      simp only [makeAlong] at h
      split at h
      · next hThere =>
          obtain ⟨hAbove, hBelow, hEnd⟩ := ih h
          refine ⟨fun front hPrefix => hAbove front (hPrefix.trans (List.prefix_append _ _)),
            hWay hThere hAbove hBelow, hEnd.imp_right fun hNone more hMore => ?_⟩
          rw [hNames]
          exact hNone more hMore
      · cases h
      · obtain ⟨hAbove, hBelow, hEnd⟩ := ih h
        have hHere := @entry_makeDirectory_self t _ hTarget
        refine ⟨fun front hPrefix => ?_, hWay hHere hAbove hBelow, .inr fun more hMore => ?_⟩
        · have hNe : front ≠ done ++ [name] := by
            rintro rfl
            have hLength := hPrefix.length_le
            rw [List.length_append, List.length_singleton] at hLength
            omega
          have hPrefix' := hPrefix.trans (List.prefix_append done [name])
          rw [hAbove front hPrefix', entry_makeDirectory_above hPrefix' hNe]
        · rw [hNames]
          rcases hEnd with rfl | hNone
          · rw [List.append_assoc]
            exact entry_makeDirectory_below hTarget (by simp [hMore])
          · exact hNone more hMore

theorem of_makeDirectories (hPath : path.isEmpty = false)
    (h : t.makeDirectories directory path = .ok t') :
    t'.walk [] (names directory path) = .ok .directory ∧
      (t' = t ∨ ∀ more ≠ [], t'.entry? (names directory path ++ more) = none) := by
  rw [makeDirectories, hPath] at h
  obtain ⟨-, hWay, hEnd⟩ := of_makeAlong h
  have hAll : ∀ front, front <+: names directory path → t'.entry? front = some .directory := by
    intro front hPrefix
    by_cases hNil : front = []
    · rw [hNil]
      rfl
    · simpa using hWay front hPrefix hNil
  refine ⟨walk_eq_ok_iff.mpr ⟨fun front hPrefix _ => ?_, ?_⟩, by simpa using hEnd⟩
  · exact hAll front hPrefix
  · exact hAll _ List.prefix_rfl

theorem walk_of_absent {done front : Names} {name : String}
    (hWay : t.walk done front = .ok .directory)
    (hAbsent : t.entry? (done ++ front ++ [name]) = none) :
    t.walk done (front ++ [name]) = .error .notFound := by
  induction front generalizing done with
  | nil =>
      have hHere := (walk_eq_ok_iff.mp hWay).2
      simp only [List.append_nil] at hHere hAbsent
      simp [walk, hHere, hAbsent]
  | cons next rest ih =>
      have hHere : t.entry? done = some .directory := by
        simpa using (walk_eq_ok_iff.mp hWay).1 [] List.nil_prefix (by simp)
      rw [walk, hHere] at hWay
      rw [List.cons_append, walk, hHere]
      exact ih hWay (by simpa using hAbsent)

/-- A file is written to a directory in which it is not. -/
theorem exists_write {dir name : String}
    (hNames : names directory path = names directory dir ++ [name])
    (hPath : path.isEmpty = false) (hEnd : path.endsWith "/" = false)
    (hWay : t.walk [] (names directory dir) = .ok .directory)
    (hAbsent : t.entry? (names directory path) = none) (content : List UInt8) :
    ∃ t', t.write directory path content = .ok t' := by
  rw [hNames, ← List.nil_append (names directory dir)] at hAbsent
  have hWalk := walk_of_absent hWay hAbsent
  exact ⟨_, by simp [write, hPath, hEnd, hNames, hWalk, hWay]; rfl⟩

/-- Where a directory has been made for a file that cannot be written, nothing has been made: the
directory was there before. -/
theorem eq_of_write_error {dir name : String} {fault : IoFault}
    (hNames : names directory path = names directory dir ++ [name])
    (hDir : dir.isEmpty = false) (hPath : path.isEmpty = false)
    (hEnd : path.endsWith "/" = false) (hMade : t.makeDirectories directory dir = .ok t')
    (hWrite : t'.write directory path content = .error fault) : t' = t := by
  obtain ⟨hWay, hSame | hEmpty⟩ := of_makeDirectories hDir hMade
  · exact hSame
  · have hAbsent : t'.entry? (names directory path) = none := by
      rw [hNames]
      exact hEmpty [name] (by simp)
    obtain ⟨t'', hDone⟩ := exists_write hNames hPath hEnd hWay hAbsent content
    cases hDone.symm.trans hWrite

theorem follow_append (directory : Names) (front back : List String) :
    follow directory (front ++ back) = follow (follow directory front) back := by
  induction front generalizing directory with
  | nil => rfl
  | cons part rest ih =>
      simp only [List.cons_append, follow]
      split
      · exact ih _
      · split <;> exact ih _

theorem startsWith_slash_append {dir : String} (hDir : dir.isEmpty = false) (more : String) :
    (dir ++ more).startsWith "/" = dir.startsWith "/" := by
  rw [Bool.eq_iff_iff, String.startsWith_string_iff, String.startsWith_string_iff,
    String.toList_append]
  cases hChars : dir.toList with
  | nil => simp_all
  | cons c rest => simp

/-- A path whose last name is not empty does not end in a slash. -/
theorem endsWith_slash_append {name : String} (hSlash : '/' ∉ name.toList) (hName : name ≠ "")
    (dir : String) : (dir ++ name).endsWith "/" = false := by
  rw [String.endsWith_eq_endsWith_toSlice, String.Slice.endsWith_string_eq_false_iff,
    String.copy_toSlice, String.toList_append]
  have hSome : name.toList ≠ [] := by simpa using hName
  rintro ⟨front, hEq⟩
  have hLast := congrArg List.getLast? hEq
  rw [List.getLast?_append, List.getLast?_append, List.getLast?_eq_some_getLast hSome] at hLast
  exact hSlash (List.mem_of_getLast? ((List.getLast?_eq_some_getLast hSome).trans hLast.symm))

/-- A name below a path leads one further. -/
theorem names_below {dir name : String} (directory : String) (hDir : dir.isEmpty = false)
    (hSlash : '/' ∉ name.toList) (hName : name ≠ "") (hDot : name ≠ ".") (hDots : name ≠ "..") :
    names directory (dir ++ "/" ++ name) = names directory dir ++ [name] := by
  have hParts : parts (dir ++ "/" ++ name) = parts dir ++ [name] := by
    have hChars : (dir ++ "/" ++ name).toList = dir.toList ++ '/' :: name.toList := by
      simp [String.toList_append]
    rw [parts, hChars, Text.pieces_append_cons, Text.pieces_of_notMem hSlash, List.map_append]
    simp [parts]
  have hLast : ∀ front, follow front [name] = front ++ [name] := by
    intro front
    simp [follow, hName, hDot, hDots]
  have hStart : (dir ++ "/" ++ name).startsWith "/" = dir.startsWith "/" := by
    rw [String.append_assoc]
    exact startsWith_slash_append hDir _
  simp only [names, hParts, hStart, follow_append, hLast]
  split <;> rfl

end ChangeGate.FileTree

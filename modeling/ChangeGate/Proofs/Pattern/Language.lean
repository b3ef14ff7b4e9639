import ChangeGate.Proofs.Pattern.Wildcard
import ChangeGate.Proofs.Text.Pieces

/-! The language of a pattern, as a set of whole paths: what its stars, its segments `**` and its
slashes stand for. The matcher accepts this language and nothing else. -/

namespace ChangeGate.Pattern

open Text
open scoped Computability

/-- The texts within a segment. -/
def slashFree : Language Char := {text | '/' ∉ text}

/-- What can stand before the last segment of a path. -/
def directories : Language Char := {text | text = [] ∨ text.getLast? = some '/'}

/-- The names that a segment other than `**` stands for. -/
def named (segment : List Char) : Language Char := {name | name ∈ filled segment ∧ '/' ∉ name}

/-- The paths that the segments of a pattern stand for. A segment `**` before the last one stands
for any number of names, each with its slash, and as the last one for any text at all. -/
def spelled : List (List Char) → Language Char
  | [] => 0
  | [segment] => if segment = anyDepth then ⊤ else named segment
  | segment :: next :: rest =>
    (if segment = anyDepth then (slashFree * {['/']})∗ else named segment * {['/']}) *
      spelled (next :: rest)

/-- The paths that a pattern stands for. -/
def language (pattern : List Char) : Language Char :=
  if '*' ∉ pattern then {path | pattern <+: path}
  else if '/' ∈ pattern then spelled (pattern.splitOn '/')
  else directories * named pattern

theorem mem_named {segment name : List Char} (hName : '/' ∉ name) :
    name ∈ named segment ↔ name ∈ filled segment :=
  and_iff_left hName

/-- A star of a segment stands for a run within the segment. -/
theorem named_star (pattern : List Char) : named ('*' :: pattern) = slashFree * named pattern := by
  ext name
  constructor
  · rintro ⟨hFilled, hFree⟩
    obtain ⟨_, ⟨run, rfl⟩, hEnd⟩ := mem_filled_star.mp hFilled
    have hParts := not_or.mp (mt List.mem_append.mpr hFree)
    exact Language.append_mem_mul hParts.1 ⟨hEnd, hParts.2⟩
  · rintro ⟨run, hRun, end_, ⟨hEnd, hFree⟩, rfl⟩
    exact ⟨mem_filled_star.mpr ⟨end_, List.suffix_append run end_, hEnd⟩,
      mt List.mem_append.mp (not_or.mpr ⟨hRun, hFree⟩)⟩

section

variable {path more : List (List Char)} {name : List Char} {L : Language Char}

/-- A path with something in front that ends at a slash: that slash is the first one. -/
theorem intercalate_mem_mul {A : Language Char} (hA : ∀ first ∈ A, '/' ∉ first)
    (hName : '/' ∉ name) :
    ['/'].intercalate (name :: more) ∈ A * {['/']} * L ↔
      name ∈ A ∧ more ≠ [] ∧ ['/'].intercalate more ∈ L := by
  constructor
  · rintro ⟨_, ⟨first, hFirst, _, rfl, rfl⟩, last, hLast, hEq⟩
    cases more with
    | nil =>
        have hSlash : '/' ∈ name := by
          have hMem : '/' ∈ ['/'].intercalate [name] := hEq ▸ by simp
          simpa using hMem
        exact absurd hSlash hName
    | cons next more =>
        rw [List.intercalate_cons_cons] at hEq
        obtain ⟨rfl, rfl⟩ := append_cons_inj (hA first hFirst) hName (by simpa using hEq)
        exact ⟨hFirst, List.cons_ne_nil _ _, hLast⟩
  · rintro ⟨hFirst, hMore, hLast⟩
    rw [List.intercalate_cons_of_ne_nil hMore]
    exact Language.append_mem_mul (Language.append_mem_mul hFirst rfl) hLast

/-- Leaving out names from the front of a path, one after another. -/
theorem any_suffixes_iff {test : List (List Char) → Bool} (hNil : test [] = false)
    (hTest : ∀ path ≠ [], (∀ name ∈ path, '/' ∉ name) →
      (test path = true ↔ ['/'].intercalate path ∈ L))
    (hPath : path ≠ []) (hFree : ∀ name ∈ path, '/' ∉ name) :
    (suffixes path).any test = true ↔ ['/'].intercalate path ∈ (slashFree * {['/']})∗ * L := by
  induction path with
  | nil => exact absurd rfl hPath
  | cons name more ih =>
      obtain ⟨hName, hMore⟩ := List.forall_mem_cons.mp hFree
      have hWithin : ∀ first ∈ slashFree, '/' ∉ first := fun _ h => h
      rw [← Language.one_add_self_mul_kstar_eq_kstar, add_mul, one_mul, mul_assoc,
        Language.mem_add, intercalate_mem_mul hWithin hName, ← hTest _ hPath hFree, suffixes,
        List.any_cons, Bool.or_eq_true]
      cases more with
      | nil => simp [suffixes, hNil]
      | cons next more =>
          have hIn : name ∈ slashFree := hName
          rw [ih (List.cons_ne_nil _ _) hMore, and_iff_right hIn,
            and_iff_right (List.cons_ne_nil _ _)]

theorem matchesSegments_nil {segments : List (List Char)} (h : segments ≠ []) :
    matchesSegments segments [] = false := by
  induction segments with
  | nil => exact absurd rfl h
  | cons segment rest ih =>
      cases rest with
      | nil => simp [matchesSegments]
      | cons next rest => simp [matchesSegments, suffixes, ih (List.cons_ne_nil _ _)]

/-- The matcher of segments accepts the paths that the segments spell. -/
theorem matchesSegments_iff {segments : List (List Char)} (hSegments : segments ≠ [])
    (hPath : path ≠ []) (hFree : ∀ name ∈ path, '/' ∉ name) :
    matchesSegments segments path = true ↔ ['/'].intercalate path ∈ spelled segments := by
  induction segments generalizing path with
  | nil => exact absurd rfl hSegments
  | cons segment rest ih =>
      obtain ⟨name, more, rfl⟩ := List.exists_cons_of_ne_nil hPath
      obtain ⟨hName, hMore⟩ := List.forall_mem_cons.mp hFree
      cases rest with
      | nil =>
          by_cases hDepth : segment = anyDepth
          · simp only [matchesSegments, spelled, if_pos hDepth]
            exact iff_of_true rfl trivial
          · simp only [matchesSegments, spelled, if_neg hDepth, Bool.and_eq_true, matchesName_iff]
            cases more with
            | nil => simp [mem_named hName]
            | cons other more =>
                refine iff_of_false (by simp) fun hMem => hMem.2 ?_
                rw [List.intercalate_cons_cons]
                simp
      | cons next rest =>
          by_cases hDepth : segment = anyDepth
          · simp only [matchesSegments, spelled, if_pos hDepth]
            exact any_suffixes_iff (matchesSegments_nil (List.cons_ne_nil _ _))
              (fun _ => ih (List.cons_ne_nil _ _)) hPath hFree
          · simp only [matchesSegments, spelled, if_neg hDepth, Bool.and_eq_true, matchesName_iff]
            have hWithin : ∀ first ∈ named segment, '/' ∉ first := fun _ h => h.2
            rw [intercalate_mem_mul hWithin hName, mem_named hName]
            cases more with
            | nil => simp [matchesSegments_nil]
            | cons other more =>
                rw [ih (List.cons_ne_nil _ _) (List.cons_ne_nil _ _) hMore,
                  and_iff_right (List.cons_ne_nil other more)]

end

/-- A path is cut before its last segment. -/
theorem exists_directory (path : List Char) :
    ∃ directory ∈ directories, ∃ name, '/' ∉ name ∧ directory ++ name = path := by
  by_cases hSlash : '/' ∈ path
  · obtain ⟨last, first, hPath, hLast⟩ := List.eq_append_cons_of_mem (List.mem_reverse.mpr hSlash)
    refine ⟨first.reverse ++ ['/'], .inr (by simp), last.reverse, by simpa using hLast, ?_⟩
    rw [← List.reverse_reverse path, hPath]
    simp
  · exact ⟨[], .inl rfl, path, hSlash, rfl⟩

/-- What comes after a directory without a slash is the last segment. -/
theorem getLast?_pieces {directory name : List Char} (hDirectory : directory ∈ directories)
    (hName : '/' ∉ name) : (pieces '/' (directory ++ name)).getLast? = some name := by
  rcases hDirectory with rfl | hLast
  · rw [List.nil_append, pieces_of_notMem hName]
    rfl
  · obtain ⟨first, rfl⟩ := List.getLast?_eq_some_iff.mp hLast
    rw [List.append_assoc, List.singleton_append, pieces_append_cons, pieces_of_notMem hName]
    simp

/-- The matcher of whole paths, for a pattern with a star. -/
theorem matchesGlob_iff {pattern path : List Char} :
    matchesGlob pattern path = true ↔
      path ∈ if '/' ∈ pattern then spelled (pattern.splitOn '/')
        else directories * named pattern := by
  by_cases hSlash : '/' ∈ pattern
  · have hPath := matchesSegments_iff (pieces_ne_nil '/' pattern) (pieces_ne_nil '/' path)
      (fun _ => notMem_of_mem_pieces)
    rw [intercalate_pieces] at hPath
    simpa [matchesGlob, hSlash, ← pieces_eq_splitOn] using hPath
  · obtain ⟨directory, hDirectory, name, hName, rfl⟩ := exists_directory path
    have hMatches : matchesGlob pattern (directory ++ name) = true ↔ name ∈ filled pattern := by
      simp [matchesGlob, hSlash, getLast?_pieces hDirectory hName, matchesName_iff]
    rw [hMatches, if_neg hSlash]
    constructor
    · exact fun hFilled => Language.append_mem_mul hDirectory ⟨hFilled, hName⟩
    · rintro ⟨other, hOther, last, ⟨hFilled, hLast⟩, hEq⟩
      -- The cut is the same one, since it is made before the last segment.
      have hSame : some name = some last := by
        rw [← getLast?_pieces hDirectory hName, ← getLast?_pieces hOther hLast]
        exact congrArg (fun path => (pieces '/' path).getLast?) hEq.symm
      exact Option.some.inj hSame ▸ hFilled

/-- A pattern matches the paths of its language and no others. -/
theorem matches_iff_mem_language (pattern path : String) :
    (ofText pattern).Matches path = true ↔ path.toList ∈ language pattern.toList := by
  by_cases hStar : '*' ∈ pattern.toList
  · simp [ofText, Matches, language, hStar, matchesGlob_iff]
  · simp only [ofText, Matches, language, List.contains_iff_mem, hStar, not_false_eq_true,
      if_false]
    exact List.isPrefixOf_iff_prefix

end ChangeGate.Pattern

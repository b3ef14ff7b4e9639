import Mathlib.Algebra.Order.Kleene
import ChangeGate.Proofs.Pattern.Language

/-! Patterns that are spelled in different ways and stand for the same paths. Spellings are compared
as products of the languages of their segments, where `**` before the last segment is a star and as
the last segment takes in everything. -/

namespace ChangeGate.Pattern

open Text
open scoped Computability

/-- What a segment that is not the last one stands for, its slash included. -/
def front (segment : List Char) : Language Char :=
  if segment = anyDepth then (slashFree * {['/']})∗ else named segment * {['/']}

theorem spelled_cons (segment : List Char) {rest : List (List Char)} (hRest : rest ≠ []) :
    spelled (segment :: rest) = front segment * spelled rest := by
  obtain ⟨next, rest, rfl⟩ := List.exists_cons_of_ne_nil hRest
  rfl

theorem spelled_append (segments : List (List Char)) {rest : List (List Char)} (hRest : rest ≠ []) :
    spelled (segments ++ rest) = (segments.map front).prod * spelled rest := by
  induction segments with
  | nil => simp
  | cons segment segments ih =>
      have hMore : segments ++ rest ≠ [] := List.append_ne_nil_of_right_ne_nil segments hRest
      rw [List.cons_append, spelled_cons segment hMore, ih, List.map_cons, List.prod_cons,
        mul_assoc]

theorem spelled_anyDepth : spelled [anyDepth] = ⊤ := if_pos rfl

/-- What takes in everything does so after anything that may be empty. -/
theorem mul_top_eq {L : Language Char} (h : [] ∈ L) : L * ⊤ = ⊤ := by
  ext text
  exact iff_of_true (Language.append_mem_mul h trivial) trivial

/-- Two segments `**` in a row stand for what one does. -/
theorem spelled_anyDepth_twice (rest : List (List Char)) :
    spelled (anyDepth :: anyDepth :: rest) = spelled (anyDepth :: rest) := by
  have hFront : front anyDepth = (slashFree * {['/']})∗ := if_pos rfl
  rw [spelled_cons anyDepth (List.cons_ne_nil _ _), hFront]
  cases rest with
  | nil => rw [spelled_anyDepth, mul_top_eq (Language.nil_mem_kstar _)]
  | cons next rest =>
      rw [spelled_cons anyDepth (List.cons_ne_nil _ _), hFront, ← mul_assoc, kstar_mul_kstar]

/-- Any number of names, each with its slash, are what can stand before the last segment. -/
theorem kstar_slashFree : (slashFree * {['/']})∗ = directories := by
  ext text
  rw [Language.mem_kstar]
  constructor
  · rintro ⟨parts, rfl, hParts⟩
    rcases List.eq_nil_or_concat parts with rfl | ⟨before, last, rfl⟩
    · exact .inl rfl
    · obtain ⟨name, -, _, rfl, rfl⟩ := hParts last (by simp)
      exact .inr (by simp)
  · rintro (rfl | hLast)
    · exact ⟨[], rfl, by simp⟩
    · obtain ⟨first, rfl⟩ := List.getLast?_eq_some_iff.mp hLast
      refine ⟨(pieces '/' first).map (· ++ ['/']), (flatten_map_pieces first).symm, ?_⟩
      intro part hMem
      obtain ⟨name, hName, rfl⟩ := List.mem_map.mp hMem
      exact Language.append_mem_mul (notMem_of_mem_pieces hName) rfl

theorem directories_mul_named_anyDepth : directories * named anyDepth = ⊤ := by
  ext path
  obtain ⟨directory, hDirectory, name, hName, rfl⟩ := exists_directory path
  have hFilled : name ∈ filled anyDepth :=
    mem_filled_star.mpr ⟨[], List.nil_suffix, nil_mem_filled.mpr rfl⟩
  exact iff_of_true (Language.append_mem_mul hDirectory ⟨hFilled, hName⟩) trivial

theorem language_of_star {pattern : List Char} (hStar : '*' ∈ pattern) :
    language pattern = if '/' ∈ pattern then spelled (pattern.splitOn '/')
      else directories * named pattern :=
  if_neg (not_not.mpr hStar)

/-- The language of a pattern with a star is spelled by its segments, also where it is `**`
alone. -/
theorem language_eq_spelled {pattern : List Char} (hStar : '*' ∈ pattern)
    (hSlash : '/' ∈ pattern ∨ pattern = anyDepth) :
    language pattern = spelled (pieces '/' pattern) := by
  rw [language_of_star hStar]
  rcases hSlash with hSlash | rfl
  · rw [if_pos hSlash, pieces_eq_splitOn]
  · exact directories_mul_named_anyDepth.trans spelled_anyDepth.symm

/-- A segment without a star stands for itself. -/
theorem front_of_plain {segment : List Char} (hStar : '*' ∉ segment) (hSlash : '/' ∉ segment) :
    front segment = {segment ++ ['/']} := by
  have hNamed : named segment = {segment} := by
    ext name
    have hAppend : name ∈ filled (segment ++ []) ↔ _ := mem_filled_append hStar
    have hFilled : name ∈ filled segment ↔ name = segment := by simpa using hAppend
    constructor
    · exact fun h => hFilled.mp h.1
    · rintro rfl
      exact ⟨hFilled.mpr rfl, hSlash⟩
  have hOther : segment ≠ anyDepth := by
    rintro rfl
    exact hStar (by decide)
  rw [front, if_neg hOther, hNamed]
  exact Set.image2_singleton

theorem prod_front_of_plain {segments : List (List Char)}
    (hStar : ∀ segment ∈ segments, '*' ∉ segment) (hSlash : ∀ segment ∈ segments, '/' ∉ segment) :
    (segments.map front).prod = {(segments.map (· ++ ['/'])).flatten} := by
  induction segments with
  | nil => rfl
  | cons segment rest ih =>
      obtain ⟨hPlain, hRest⟩ := List.forall_mem_cons.mp hStar
      obtain ⟨hWithin, hMore⟩ := List.forall_mem_cons.mp hSlash
      rw [List.map_cons, List.prod_cons, ih hRest hMore, front_of_plain hPlain hWithin]
      exact Set.image2_singleton

/-- A directory and everything under it. -/
theorem mem_language_directory {directory path : List Char} (hPlain : '*' ∉ directory) :
    path ∈ language (directory ++ '/' :: anyDepth) ↔ directory ++ ['/'] <+: path := by
  have hStar : '*' ∈ directory ++ '/' :: anyDepth := by simp [anyDepth]
  have hParts : ∀ segment ∈ pieces '/' directory, '*' ∉ segment :=
    fun segment hMem hIn => hPlain (mem_of_mem_pieces hMem hIn)
  have hLast : pieces '/' anyDepth = [anyDepth] := pieces_of_notMem (by decide)
  rw [language_eq_spelled hStar (.inl (by simp)), pieces_append_cons, hLast,
    spelled_append _ (List.cons_ne_nil _ _), spelled_anyDepth,
    prod_front_of_plain hParts fun _ => notMem_of_mem_pieces, flatten_map_pieces]
  constructor
  · rintro ⟨_, rfl, rest, -, rfl⟩
    exact List.prefix_append _ _
  · rintro ⟨rest, rfl⟩
    exact Language.append_mem_mul rfl trivial

theorem matches_iff_of_star {pattern path : String} (hStar : '*' ∈ pattern.toList) :
    (ofText pattern).Matches path = true ↔ path.toList ∈ language pattern.toList := by
  rw [language_of_star hStar, ← matchesGlob_iff]
  simp [ofText, Matches, hStar]

/-- Two patterns with stars match alike if they have one language. -/
theorem matches_congr {p q path : String} (hp : '*' ∈ p.toList) (hq : '*' ∈ q.toList)
    (h : language p.toList = language q.toList) :
    (ofText p).Matches path = (ofText q).Matches path := by
  rw [Bool.eq_iff_iff, matches_iff_of_star hp, matches_iff_of_star hq, h]

/-- A glob within a name, and the same one below any number of directories. -/
theorem language_eq_anyDepth_slash {name : List Char} (hStar : '*' ∈ name) (hSlash : '/' ∉ name) :
    language name = language (anyDepth ++ '/' :: name) := by
  have hAll : '*' ∈ anyDepth ++ '/' :: name := by simp [hStar]
  have hFirst : pieces '/' anyDepth = [anyDepth] := pieces_of_notMem (by decide)
  rw [language_of_star hStar, if_neg hSlash, language_eq_spelled hAll (.inl (by simp)),
    pieces_append_cons, hFirst, pieces_of_notMem hSlash, List.singleton_append,
    spelled_cons anyDepth (List.cons_ne_nil _ _)]
  have hFront : front anyDepth = directories := (if_pos rfl).trans kstar_slashFree
  rw [hFront]
  by_cases hDepth : name = anyDepth
  · subst hDepth
    rw [directories_mul_named_anyDepth, spelled_anyDepth, mul_top_eq (.inl rfl)]
  · exact congrArg (directories * ·) (if_neg hDepth).symm

theorem pieces_intercalate_anyDepth (before after : List (List Char)) :
    pieces '/' (['/'].intercalate (before ++ anyDepth :: after)) =
      before.flatMap (pieces '/') ++ anyDepth :: after.flatMap (pieces '/') := by
  have hDepth : pieces '/' anyDepth = [anyDepth] := pieces_of_notMem (by decide)
  rw [pieces_intercalate_eq_flatMap (by simp), List.flatMap_append, List.flatMap_cons, hDepth,
    List.singleton_append]

theorem star_mem_intercalate (before after : List (List Char)) :
    '*' ∈ ['/'].intercalate (before ++ anyDepth :: after) := by
  have hMem : anyDepth ∈ pieces '/' (['/'].intercalate (before ++ anyDepth :: after)) := by
    simp [pieces_intercalate_anyDepth]
  exact mem_of_mem_pieces hMem (by decide)

/-- The language of a text of segments, of which one is `**`. -/
theorem language_intercalate (before after : List (List Char)) :
    language (['/'].intercalate (before ++ anyDepth :: after)) =
      ((before.flatMap (pieces '/')).map front).prod *
        spelled (anyDepth :: after.flatMap (pieces '/')) := by
  have hPieces := pieces_intercalate_anyDepth before after
  rw [language_eq_spelled (star_mem_intercalate before after) ?_, hPieces,
    spelled_append _ (List.cons_ne_nil _ _)]
  by_cases hSlash : '/' ∈ ['/'].intercalate (before ++ anyDepth :: after)
  · exact .inl hSlash
  · -- without a slash there is one piece
    rw [pieces_of_notMem hSlash] at hPieces
    have hMem : anyDepth ∈ [['/'].intercalate (before ++ anyDepth :: after)] := by simp [hPieces]
    exact .inr (List.mem_singleton.mp hMem).symm

/-- Spellings that match the same paths: a directory with `**` under it and the directory with its
slash, a glob within a name and the same one after `**`, and two segments `**` in a row and one of
them. -/
theorem spellings_agree (path : String) :
    (∀ directory : String, '*' ∉ directory.toList →
      (ofText (directory ++ "/**")).Matches path = (ofText (directory ++ "/")).Matches path) ∧
    (∀ name : String, '*' ∈ name.toList → '/' ∉ name.toList →
      (ofText name).Matches path = (ofText ("**/" ++ name)).Matches path) ∧
    ∀ before after : List String,
      (ofText ("/".intercalate (before ++ "**" :: "**" :: after))).Matches path =
        (ofText ("/".intercalate (before ++ "**" :: after))).Matches path := by
  refine ⟨fun directory hPlain => ?_, fun name hStar hSlash => ?_, fun before after => ?_⟩
  · have hGlob : (directory ++ "/**").toList = directory.toList ++ '/' :: anyDepth := by
      simp [anyDepth]
    have hLeading : ofText (directory ++ "/") = .leading (directory ++ "/") := by
      simp [ofText, hPlain]
    rw [Bool.eq_iff_iff, matches_iff_of_star (by simp), hGlob, mem_language_directory hPlain,
      hLeading, Matches, List.isPrefixOf_iff_prefix, String.toList_append]
    rfl
  · have hText : ("**/" ++ name).toList = anyDepth ++ '/' :: name.toList := by simp [anyDepth]
    refine matches_congr hStar (by simp) ?_
    rw [hText]
    exact language_eq_anyDepth_slash hStar hSlash
  · have hText : ∀ rest, ("/".intercalate (before ++ "**" :: rest)).toList =
        ['/'].intercalate (before.map String.toList ++ anyDepth :: rest.map String.toList) := by
      intro rest
      simp [String.toList_intercalate, anyDepth]
    have hStar : ∀ rest, '*' ∈ ("/".intercalate (before ++ "**" :: rest)).toList := by
      intro rest
      rw [hText]
      exact star_mem_intercalate _ _
    refine matches_congr (hStar _) (hStar _) ?_
    have hDepth : pieces '/' "**".toList = [anyDepth] := pieces_of_notMem (by decide)
    rw [hText, hText, language_intercalate, language_intercalate, List.map_cons, List.flatMap_cons,
      hDepth, List.singleton_append, spelled_anyDepth_twice]

/-- What is under a directory, Python files at any depth, and those under a directory at any
depth. -/
theorem sample_spellings_agree :
    '*' ∉ "src".toList ∧ (ofText ("src" ++ "/**")).Matches "src/pkg/mod.py" = true ∧
    '*' ∈ "*.py".toList ∧ '/' ∉ "*.py".toList ∧
    (ofText "*.py").Matches "src/pkg/mod.py" = (ofText ("**/" ++ "*.py")).Matches "src/pkg/mod.py" ∧
    (ofText ("/".intercalate (["src"] ++ "**" :: "**" :: ["*.py"]))).Matches "src/pkg/mod.py" =
      (ofText ("/".intercalate (["src"] ++ "**" :: ["*.py"]))).Matches "src/pkg/mod.py" := by
  obtain ⟨hDirectory, hName, hTwice⟩ := spellings_agree "src/pkg/mod.py"
  have hStar : '*' ∈ "*.py".toList := by decide
  have hSlash : '/' ∉ "*.py".toList := by decide
  exact ⟨by decide, (hDirectory "src" (by decide)).trans (by decide), hStar, hSlash,
    hName "*.py" hStar hSlash, hTwice ["src"] ["*.py"]⟩

end ChangeGate.Pattern

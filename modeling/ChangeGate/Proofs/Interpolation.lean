import Mathlib.Data.List.TakeWhile
import ChangeGate.Interpolation
import ChangeGate.Proofs.Text.Blank
import ChangeGate.Proofs.Text.Search

/-!
Expressions by a scan that never goes back. An expression is an opening, the text up to the next
closing brace, if there is any, and that brace doubled. A search for `expression` finds the same
expressions and the same names, so a text is cut into expressions and single characters by itself
alone, before anything is looked up, and the characters stay as they are.
-/

namespace ChangeGate.Interpolation

variable {start text inside rest : List Char} {taken : List (List Char)}

theorem after?_eq_some_iff :
    after? start text = some rest ↔ text = start ++ rest := by
  rw [after?]
  constructor
  · intro h
    split at h
    · next hStart =>
        obtain ⟨rest', rfl⟩ := List.isPrefixOf_iff_prefix.mp hStart
        rw [List.drop_left] at h
        cases h
        rfl
    · cases h
  · rintro rfl
    rw [if_pos (List.isPrefixOf_iff_prefix.mpr (List.prefix_append start rest)), List.drop_left]

theorem after?_append (start rest : List Char) : after? start (start ++ rest) = some rest :=
  after?_eq_some_iff.mpr rfl

theorem after?_eq_none_iff : after? start text = none ↔ ¬ start <+: text := by
  rw [Option.eq_none_iff_forall_ne_some]
  simp only [ne_eq, after?_eq_some_iff]
  exact ⟨fun h ⟨rest, hText⟩ => h rest hText.symm, fun h rest hText => h ⟨rest, hText.symm⟩⟩

theorem Scope.value_env (scope : Scope) (name : List Char) :
    scope.value ("env.".toList ++ name) =
      ((scope.vars.get? (String.ofList name)).or
        (scope.environment (String.ofList name))).getD "" := by
  rw [Scope.value, after?_append]

theorem Scope.value_matrix (scope : Scope) (key : List Char) :
    scope.value ("matrix.".toList ++ key) =
      (scope.parameters.get? (String.ofList key)).getD "" := by
  have hEnv : after? "env.".toList ("matrix.".toList ++ key) = none := by simp [after?]
  rw [Scope.value, hEnv, after?_append]

theorem Scope.value_of_plain (scope : Scope) {name : List Char} (hEnv : ¬ "env.".toList <+: name)
    (hMatrix : ¬ "matrix.".toList <+: name) :
    scope.value name = (scope.vars.get? (String.ofList name)).getD "" := by
  rw [Scope.value, after?_eq_none_iff.mpr hEnv, after?_eq_none_iff.mpr hMatrix]

/-- What an expression starts with. -/
def opening : List Char := ['$', '\x7b', '\x7b']

/-- What an expression ends with. -/
def closing : List Char := ['\x7d', '\x7d']

/-- The expression at the start of a text, if there is one: the text between its opening and the
next closing brace, and the text after it. -/
def expressionAt? (text : List Char) : Option (List Char × List Char) := do
  let inner ← after? opening text
  let inside := inner.takeWhile (· != '\x7d')
  let rest ← after? closing (inner.dropWhile (· != '\x7d'))
  if inside.isEmpty then none else some (inside, rest)

theorem expressionAt?_eq_some_iff :
    expressionAt? text = some (inside, rest) ↔
      inside ≠ [] ∧ '\x7d' ∉ inside ∧ text = opening ++ (inside ++ (closing ++ rest)) := by
  simp only [expressionAt?, Option.bind_eq_bind, Option.bind_eq_some_iff, after?_eq_some_iff,
    Option.ite_none_left_eq_some, Option.some.injEq, Prod.mk.injEq, List.isEmpty_iff]
  constructor
  · rintro ⟨inner, rfl, rest', hRest, hSome, rfl, rfl⟩
    refine ⟨hSome, fun hMem => ?_, ?_⟩
    · simpa using List.mem_takeWhile_imp hMem
    · rw [← hRest, List.takeWhile_append_dropWhile]
  · rintro ⟨hSome, hBrace, rfl⟩
    have hInside : ∀ c ∈ inside, (c != '\x7d') = true := fun c hMem =>
      bne_iff_ne.mpr fun hEq => hBrace (hEq ▸ hMem)
    have hTake : (inside ++ (closing ++ rest)).takeWhile (· != '\x7d') = inside := by
      rw [List.takeWhile_append_of_pos hInside]
      simp [closing]
    have hDrop : (inside ++ (closing ++ rest)).dropWhile (· != '\x7d') = closing ++ rest := by
      rw [List.dropWhile_append_of_pos hInside]
      simp [closing]
    exact ⟨_, rfl, rest, hDrop, by rwa [hTake], hTake, rfl⟩

theorem length_lt_of_expressionAt? (h : expressionAt? text = some (inside, rest)) :
    rest.length < text.length := by
  obtain ⟨-, -, rfl⟩ := expressionAt?_eq_some_iff.mp h
  simp [opening]
  omega

inductive Piece where
  | copied (c : Char)
  | expression (inside : List Char)
  deriving DecidableEq

/-- The pieces of a text from left to right. -/
def cut : List Char → List Piece
  | [] => []
  | c :: text =>
    match _h : expressionAt? (c :: text) with
    | some (inside, rest) => .expression inside :: cut rest
    | none => .copied c :: cut text
termination_by text => text.length
decreasing_by
  · exact length_lt_of_expressionAt? _h
  · simp

theorem cut_of_expressionAt? (h : expressionAt? text = some (inside, rest)) :
    cut text = .expression inside :: cut rest := by
  cases text with
  | nil => cases length_lt_of_expressionAt? h
  | cons c text =>
      rw [cut]
      split
      · next h' => cases h.symm.trans h'; rfl
      · next h' => cases h.symm.trans h'

theorem cut_cons_of_expressionAt? {c : Char} (h : expressionAt? (c :: text) = none) :
    cut (c :: text) = .copied c :: cut text := by
  rw [cut]
  split
  · next h' => cases h.symm.trans h'
  · rfl

/-- The text of a piece. -/
def Piece.written : Piece → List Char
  | .copied c => [c]
  | .expression inside => opening ++ inside ++ closing

/-- What a piece becomes where names have these values. -/
def Piece.filled (value : List Char → String) : Piece → List Char
  | .copied c => [c]
  | .expression inside => (value (Text.trim inside)).toList

/-- No character of a text is lost or moved by the cut. -/
theorem flatMap_written_cut (text : List Char) : (cut text).flatMap Piece.written = text := by
  induction text using cut.induct with
  | case1 => simp [cut]
  | case2 c text inside rest hHere ih =>
      obtain ⟨-, -, hText⟩ := expressionAt?_eq_some_iff.mp hHere
      rw [cut_of_expressionAt? hHere, List.flatMap_cons, ih, hText, Piece.written,
        List.append_assoc, List.append_assoc]
  | case3 c text hHere ih =>
      rw [cut_cons_of_expressionAt? hHere, List.flatMap_cons, ih, Piece.written,
        List.singleton_append]

/-- What the parts of an expression may take in. -/
theorem fits_expression_iff :
    List.Forall₂ Text.Part.Fits expression.parts taken ↔
      ∃ before name after, (∀ c ∈ before, Text.isBlank c = true) ∧ '\x7d' ∉ name ∧
        1 ≤ name.length ∧ (∀ c ∈ after, Text.isBlank c = true) ∧
        taken = [['\x7b'], ['\x7b'], before, name, after, ['\x7d'], ['\x7d']] := by
  simp [expression, List.forall₂_cons_left_iff, Text.Part.fits_one_iff, Text.Part.fits_run_iff,
    List.forall_mem_ne', and_assoc]

theorem not_mem_of_blank {blanks : List Char} (h : ∀ c ∈ blanks, Text.isBlank c = true) :
    '\x7d' ∉ blanks :=
  fun hMem => by simpa [Text.isBlank] using h _ hMem

/-- An expression that the search finds. Blanks are no closing braces, so wherever the runs of
blanks end, all that stands between the braces is the same. -/
theorem of_at?_expression (h : expression.at? text = some (taken, rest)) :
    ∃ inside, expressionAt? text = some (inside, rest) ∧ nameOf taken = Text.trim inside := by
  obtain ⟨hFits, rfl⟩ := Text.Search.fits_of_at? h
  obtain ⟨before, name, after, hBefore, hName, hLength, hAfter, rfl⟩ := fits_expression_iff.mp hFits
  refine ⟨before ++ name ++ after, expressionAt?_eq_some_iff.mpr ⟨?_, ?_, ?_⟩,
    (Text.trim_padded hBefore hAfter).symm⟩
  · have hSome : name ≠ [] := List.length_pos_iff.mp hLength
    simp [hSome]
  · simp [not_mem_of_blank hBefore, hName, not_mem_of_blank hAfter]
  · simp [expression, opening, closing]

/-- Wherever there is an expression the search finds one: the blanks at both ends of a name may all
be taken as part of it. -/
theorem isSome_at?_expression (h : expressionAt? text = some (inside, rest)) :
    (expression.at? text).isSome = true := by
  obtain ⟨hSome, hBrace, rfl⟩ := expressionAt?_eq_some_iff.mp h
  have hFits := fits_expression_iff.mpr ⟨[], inside, [], by simp, hBrace,
    List.length_pos_iff.mpr hSome, by simp, rfl⟩
  simpa [expression, opening, closing] using Text.Search.isSome_at? (s := expression) hFits rest

/-- The text with every match of the search replaced is the text of its pieces, filled. -/
theorem replaceAll_expression (value : List Char → String) (text : List Char) :
    expression.replaceAll (fun taken => (value (nameOf taken)).toList) text =
      (cut text).flatMap (Piece.filled value) := by
  -- by the recursion of the cut, which goes on where the search does
  induction text using cut.induct with
  | case1 => simp [cut, Text.Search.replaceAll]
  | case2 c text inside rest hHere ih =>
      obtain ⟨⟨taken, rest'⟩, hAt⟩ := Option.isSome_iff_exists.mp (isSome_at?_expression hHere)
      obtain ⟨inside', hHere', hName⟩ := of_at?_expression hAt
      cases hHere.symm.trans hHere'
      rw [Text.Search.replaceAll_of_at? hAt, cut_of_expressionAt? hHere, List.flatMap_cons, ih,
        hName, Piece.filled]
  | case3 c text hHere ih =>
      have hAt : expression.at? (c :: text) = none := by
        rw [Option.eq_none_iff_forall_ne_some]
        rintro ⟨taken, rest⟩ hAt
        obtain ⟨inside, hHere', -⟩ := of_at?_expression hAt
        cases hHere.symm.trans hHere'
      rw [Text.Search.replaceAll_cons_of_at? hAt, cut_cons_of_expressionAt? hHere,
        List.flatMap_cons, ih, Piece.filled, List.singleton_append]

/-- A text that is one expression, with a space on each side of the name, is the value of the
name. -/
theorem interpolate_expression (scope : Scope) {text : String} {name : List Char}
    (hText : text.toList = opening ++ (' ' :: name ++ [' ']) ++ closing) (hBrace : '\x7d' ∉ name)
    (hTrim : Text.trim name = name) : interpolate scope text = scope.value name := by
  have hHere : expressionAt? text.toList = some ([' '] ++ name ++ [' '], []) :=
    expressionAt?_eq_some_iff.mpr ⟨by simp, by simp [hBrace], by simp [hText]⟩
  have hSpace : ∀ c ∈ [' '], Text.isBlank c = true := List.forall_mem_singleton.mpr rfl
  have hName : Text.trim ([' '] ++ name ++ [' ']) = name :=
    (Text.trim_padded hSpace hSpace).trans hTrim
  rw [interpolate, replaceAll_expression, cut_of_expressionAt? hHere, List.flatMap_cons, cut,
    List.flatMap_nil, List.append_nil, Piece.filled, hName, String.ofList_toList]

/-- Command texts are read once, from left to right. How a text is cut does not depend on any value,
what stands in no expression is copied as it is, and an expression becomes the value of the trimmed
text in it, which is not read again. -/
theorem interpolate_in_one_pass (scope : Scope) (text : String) :
    interpolate scope text = String.ofList ((cut text.toList).flatMap (Piece.filled scope.value)) ∧
      (cut text.toList).flatMap Piece.written = text.toList ∧
      (∀ name, scope.value ("env.".toList ++ name) =
        ((scope.vars.get? (String.ofList name)).or
          (scope.environment (String.ofList name))).getD "") ∧
      (∀ key, scope.value ("matrix.".toList ++ key) =
        (scope.parameters.get? (String.ofList key)).getD "") ∧
      ∀ name, ¬ "env.".toList <+: name → ¬ "matrix.".toList <+: name →
        scope.value name = (scope.vars.get? (String.ofList name)).getD "" := by
  refine ⟨?_, flatMap_written_cut text.toList, scope.value_env, scope.value_matrix,
    fun name => scope.value_of_plain⟩
  rw [interpolate, replaceAll_expression]

/-- The value of `a` reads as an expression. -/
def sampleScope : Scope where
  vars := Table.ofList [("a", "$\x7b\x7b b \x7d\x7d"), ("b", "no")]
  parameters := Table.ofList [("k", "m")]
  environment := fun name => if name = "HOME" then some "/h" else none

/-- An opening that closes with one brace, one with nothing in it and one that never closes stay,
also where expressions follow in them or after them. -/
theorem sample_in_one_pass :
    (¬ "env.".toList <+: "a".toList ∧ ¬ "matrix.".toList <+: "a".toList) ∧
      sampleScope.value "a".toList = "$\x7b\x7b b \x7d\x7d" ∧
      interpolate sampleScope
          ("$\x7b\x7ba\x7d$\x7b\x7b a \x7d\x7d" ++
            "$\x7b\x7b\x7d\x7d$\x7b\x7b\nmatrix.k\x7d\x7d$\x7b\x7benv.HOME") =
        "$\x7b\x7ba\x7d$\x7b\x7b b \x7d\x7d$\x7b\x7b\x7d\x7dm$\x7b\x7benv.HOME" := by
  refine ⟨⟨by decide, by decide⟩, ?_, ?_⟩
  · rw [(interpolate_in_one_pass sampleScope "").2.2.2.2 "a".toList (by decide) (by decide)]
    decide +kernel
  · rw [(interpolate_in_one_pass sampleScope _).1]
    decide +kernel

end ChangeGate.Interpolation

import ChangeGate.Detector

/-! Decisions on changed paths. A decision names the first path that some pattern matches, with the
first pattern that matches it, and whether there are relevant changes depends only on which paths
and which patterns there are. Being without patterns is the exception: then every path is relevant,
so that the first pattern may take relevance away. -/

namespace ChangeGate

/-- No path of a list is relevant exactly if no pattern matches one of them; and without patterns
only if there is no path. -/
theorem Decision.changesDetected_ofPaths_eq_false_iff {patterns : List Pattern}
    {paths : List String} :
    (Decision.ofPaths patterns paths).changesDetected = false ↔
      (∀ path ∈ paths, ∀ pattern ∈ patterns, pattern.Matches path = false) ∧
        (patterns = [] → paths = []) := by
  have hNone : (Decision.ofPaths patterns paths).changesDetected = false ↔
      Pattern.firstRelevant? patterns paths = none := by
    simp only [Decision.ofPaths]
    cases Pattern.firstRelevant? patterns paths <;> simp [Decision.matched, Decision.noMatch]
  rw [hNone]
  simp only [Pattern.firstRelevant?, List.findSome?_eq_none_iff]
  cases patterns with
  | nil => simp [List.eq_nil_iff_forall_not_mem]
  | cons pattern rest => simp [Pattern.first?]

/-- The decision that there are no relevant changes is taken only on paths that have been listed. -/
theorem Detector.paths_of_evaluate {d : Detector} {diff : Except Error (List String)}
    {decision : Decision} (h : d.evaluate diff = .ok decision)
    (hNone : decision.changesDetected = false) :
    ∃ paths, diff = .ok paths ∧ d.decide paths = decision := by
  cases diff with
  | ok paths => exact ⟨paths, rfl, Except.ok.inj h⟩
  | error e =>
      simp only [Detector.evaluate] at h
      split at h
      · cases h
        cases hNone
      · cases h

/-- Judging fails exactly where listing the paths has failed, and not for want of a revision. -/
theorem Detector.evaluate_eq_error_iff {d : Detector} {diff : Except Error (List String)}
    {e : Error} :
    d.evaluate diff = .error e ↔ diff = .error e ∧ e.isRevisionResolution = false := by
  cases diff with
  | ok paths => simp [Detector.evaluate]
  | error e' =>
      simp only [Detector.evaluate, Except.error.injEq]
      cases hKind : e'.isRevisionResolution with
      | true =>
          simp only [if_true, reduceCtorEq, false_iff, not_and]
          rintro rfl
          simp [hKind]
      | false =>
          simp only [Bool.false_eq_true, if_false, Except.error.injEq]
          exact ⟨fun h => ⟨h, h ▸ hKind⟩, And.left⟩

/-- An item of a list that has a property, and before which no item has it. -/
def IsFirst {α : Type} (P : α → Prop) (l : List α) (a : α) : Prop :=
  ∃ before after, l = before ++ a :: after ∧ (∀ b ∈ before, ¬ P b) ∧ P a

namespace Pattern

/-- Whether a pattern, given by its text, matches a path. -/
def TextMatches (pattern path : String) : Prop := (ofText pattern).Matches path = true

/-- Some pattern matches one of the paths; or there are paths, and no patterns to go by. -/
def Relevant (patterns paths : List String) : Prop :=
  (∃ path ∈ paths, ∃ pattern ∈ patterns, TextMatches pattern path) ∨ (patterns = [] ∧ paths ≠ [])

/-- The path and the pattern that show that paths are relevant: the first path that any pattern
matches, and the first pattern that matches it. Without patterns a star stands for the pattern. -/
inductive Witness (patterns paths : List String) : String → String → Prop where
  | unfiltered {path : String} (hPatterns : patterns = []) (hPath : paths.head? = some path) :
      Witness patterns paths path "*"
  | matched {path pattern : String}
      (hPath : IsFirst (fun path => ∃ pattern ∈ patterns, TextMatches pattern path) paths path)
      (hPattern : IsFirst (TextMatches · path) patterns pattern) :
      Witness patterns paths path pattern

/-- Only a relevant list has a witness. -/
theorem Witness.relevant {patterns paths : List String} {path pattern : String}
    (witness : Witness patterns paths path pattern) : Relevant patterns paths := by
  cases witness with
  | unfiltered hPatterns hPath => exact .inr ⟨hPatterns, by rintro rfl; cases hPath⟩
  | matched hPath hPattern =>
      obtain ⟨before, after, rfl, -, hMatched⟩ := hPath
      exact .inl ⟨path, by simp, hMatched⟩

section

variable {patterns patterns' paths paths' : List String}

/-- More paths, or more patterns where there are any, leave relevant what was relevant. -/
theorem Relevant.mono (relevant : Relevant patterns paths) (hPaths : paths ⊆ paths')
    (hPatterns : patterns ⊆ patterns') (hFilters : patterns = [] → patterns' = []) :
    Relevant patterns' paths' := by
  rcases relevant with ⟨path, hPath, pattern, hPattern, hMatches⟩ | ⟨hNone, hSome⟩
  · exact .inl ⟨path, hPaths hPath, pattern, hPatterns hPattern, hMatches⟩
  · refine .inr ⟨hFilters hNone, ?_⟩
    rintro rfl
    exact hSome (List.subset_nil.mp hPaths)

end

end Pattern

namespace Detector

open Pattern

variable (patterns paths : List String) (key : String)

/-- The first pattern takes relevance away from the paths that it does not match. -/
example : ((ofWorkflow ⟨[], "flag"⟩).decide ["docs/index.md"]).changesDetected = true ∧
    ((ofWorkflow ⟨["src/"], "flag"⟩).decide ["docs/index.md"]).changesDetected = false := by
  decide

end Detector

end ChangeGate

/-!
Searching a text for a sequence of parts. A part is one character of a kind, or a run of characters
of a kind, and a run is either greedy or lazy. Where parts can match in several ways the search goes
back: a greedy run first takes in all it can and gives characters up again, a lazy one first takes
in as little as it may and takes in more, until the parts after it match.
-/

namespace ChangeGate.Text

inductive Part where
  | one (kind : Char → Bool)
  /-- At least `least` characters. -/
  | run (kind : Char → Bool) (least : Nat) (greedy : Bool)

section

variable {β : Type} (next : List Char → Option β)

/-- A run that ends where the text starts, if no more characters are due and `next` matches. -/
def endRun (least : Nat) (text : List Char) : Option (List Char × β) :=
  if least = 0 then (next text).map fun b => ([], b) else none

/-- A run at the start of a text, of `least` characters or more, after which `next` matches. -/
def takeRun (kind : Char → Bool) (greedy : Bool) : Nat → List Char → Option (List Char × β)
  | least, [] => endRun next least []
  | least, c :: text =>
    if kind c then
      if greedy then
        ((takeRun kind greedy (least - 1) text).map fun (run, b) => (c :: run, b)).orElse
          fun _ => endRun next least (c :: text)
      else
        (endRun next least (c :: text)).orElse
          fun _ => (takeRun kind greedy (least - 1) text).map fun (run, b) => (c :: run, b)
    else endRun next least (c :: text)

end

/-- The match of parts at the start of a text: what each part takes in, and the text after it. -/
def match? : List Part → List Char → Option (List (List Char) × List Char)
  | [], text => some ([], text)
  | .one _ :: _, [] => none
  | .one kind :: parts, c :: text =>
    if kind c then (match? parts text).map fun (taken, rest) => ([c] :: taken, rest) else none
  | .run kind least greedy :: parts, text =>
    (takeRun (match? parts) kind greedy least text).map fun (run, taken, rest) =>
      (run :: taken, rest)

theorem eq_append_of_endRun {β : Type} {next : List Char → Option β} {least : Nat}
    {text run : List Char} {b : β} (h : endRun next least text = some (run, b)) :
    run = [] ∧ least = 0 ∧ next text = some b := by
  unfold endRun at h
  split at h
  · next hLeast =>
    obtain ⟨b', hNext, hEq⟩ := Option.map_eq_some_iff.mp h
    cases hEq
    exact ⟨rfl, hLeast, hNext⟩
  · cases h

/-- What a run takes in is long enough and of its kind, and the text after it is what `next` got. -/
theorem of_takeRun {β : Type} {next : List Char → Option β} {kind : Char → Bool} {greedy : Bool}
    {least : Nat} {text run : List Char} {b : β}
    (h : takeRun next kind greedy least text = some (run, b)) :
    run.all kind = true ∧ least ≤ run.length ∧
      ∃ rest, text = run ++ rest ∧ next rest = some b := by
  have hEnd : ∀ {least : Nat} {text run : List Char}, endRun next least text = some (run, b) →
      run.all kind = true ∧ least ≤ run.length ∧
        ∃ rest, text = run ++ rest ∧ next rest = some b := by
    intro least text run hEnds
    obtain ⟨rfl, rfl, hNext⟩ := eq_append_of_endRun hEnds
    exact ⟨rfl, Nat.le_refl 0, text, rfl, hNext⟩
  induction text generalizing least run with
  | nil => exact hEnd h
  | cons c text ih =>
    have hMore : kind c = true →
        ((takeRun next kind greedy (least - 1) text).map fun (run, b) => (c :: run, b)) =
          some (run, b) →
        run.all kind = true ∧ least ≤ run.length ∧
          ∃ rest, c :: text = run ++ rest ∧ next rest = some b := by
      intro hKind hMore
      obtain ⟨⟨run', b'⟩, hRun, hEq⟩ := Option.map_eq_some_iff.mp hMore
      cases hEq
      obtain ⟨hAll, hLeast, rest, rfl, hNext⟩ := ih hRun
      refine ⟨by simp [hKind, hAll], ?_, rest, rfl, hNext⟩
      simp only [List.length_cons]
      omega
    rw [takeRun] at h
    split at h
    · next hKind =>
      rw [Option.orElse_eq_or, Option.orElse_eq_or] at h
      split at h
      · exact (Option.or_eq_some_iff.mp h).elim (hMore hKind) fun h => hEnd h.2
      · exact (Option.or_eq_some_iff.mp h).elim hEnd fun h => hMore hKind h.2
    · exact hEnd h

theorem length_le_of_match? {parts : List Part} {text rest : List Char} {taken : List (List Char)}
    (h : match? parts text = some (taken, rest)) : rest.length ≤ text.length := by
  induction parts generalizing text taken with
  | nil =>
    cases h
    exact Nat.le_refl _
  | cons part parts ih =>
    cases part with
    | one kind =>
      cases text with
      | nil => cases h
      | cons c text =>
        rw [match?] at h
        split at h
        · obtain ⟨⟨taken', rest'⟩, hRest, hEq⟩ := Option.map_eq_some_iff.mp h
          cases hEq
          exact Nat.le_succ_of_le (ih hRest)
        · cases h
    | run kind least greedy =>
      rw [match?] at h
      obtain ⟨⟨run, taken', rest'⟩, hRun, hEq⟩ := Option.map_eq_some_iff.mp h
      cases hEq
      obtain ⟨-, -, left, rfl, hRest⟩ := of_takeRun hRun
      have hLength := ih hRest
      simp only [List.length_append]
      omega

/-- What is searched for: a character and the parts after it. -/
structure Search where
  opening : Char
  parts : List Part

namespace Search

/-- What the parts of a match at the start of a text take in, and the text after it. -/
def at? (s : Search) : List Char → Option (List (List Char) × List Char)
  | [] => none
  | c :: text => if c = s.opening then match? s.parts text else none

theorem length_lt_of_at? {s : Search} {text rest : List Char} {taken : List (List Char)}
    (h : s.at? text = some (taken, rest)) : rest.length < text.length := by
  cases text with
  | nil => cases h
  | cons c text =>
    rw [at?] at h
    split at h
    · exact Nat.lt_succ_of_le (length_le_of_match? h)
    · cases h

/-- The text with every match replaced by a value of what its parts take in. Matches are looked for
from the start, and each after the end of the one before. -/
def replaceAll (s : Search) (value : List (List Char) → List Char) : List Char → List Char
  | [] => []
  | c :: text =>
    match _h : s.at? (c :: text) with
    | some (taken, rest) => value taken ++ s.replaceAll value rest
    | none => c :: s.replaceAll value text
termination_by text => text.length
decreasing_by
  · exact length_lt_of_at? _h
  · simp

end Search

end ChangeGate.Text

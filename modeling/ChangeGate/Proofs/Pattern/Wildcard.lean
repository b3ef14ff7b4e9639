import Mathlib.Computability.Language
import ChangeGate.Pattern

/-! Matching a name. The matcher goes back to the last star only, giving it one character more each
time. This loses nothing: what an earlier star could take in besides, the last one takes in. -/

namespace ChangeGate.Pattern

/-- The names that a segment stands for: a star stands for any run of characters, and any other
character for itself. -/
def filled : List Char → Language Char
  | [] => 1
  | p :: pattern => (if p = '*' then ⊤ else {[p]}) * filled pattern

@[simp] theorem mem_filled_nil {name : List Char} : name ∈ filled [] ↔ name = [] := Iff.rfl

theorem mem_filled_star {pattern name : List Char} :
    name ∈ filled ('*' :: pattern) ↔ ∃ end_, end_ <:+ name ∧ end_ ∈ filled pattern := by
  simp only [filled, if_true, Language.mem_mul]
  constructor
  · rintro ⟨run, -, end_, hEnd, rfl⟩
    exact ⟨end_, List.suffix_append run end_, hEnd⟩
  · rintro ⟨end_, ⟨run, rfl⟩, hEnd⟩
    exact ⟨run, trivial, end_, hEnd, rfl⟩

theorem mem_filled_cons {p : Char} (hPlain : p ≠ '*') {pattern name : List Char} :
    name ∈ filled (p :: pattern) ↔ ∃ end_, name = p :: end_ ∧ end_ ∈ filled pattern := by
  simp only [filled, if_neg hPlain, Language.mem_mul]
  constructor
  · rintro ⟨run, rfl, end_, hEnd, rfl⟩
    exact ⟨end_, rfl, hEnd⟩
  · rintro ⟨end_, rfl, hEnd⟩
    exact ⟨[p], rfl, end_, hEnd, rfl⟩

theorem nil_mem_filled {pattern : List Char} :
    [] ∈ filled pattern ↔ pattern.all (· == '*') = true := by
  induction pattern with
  | nil => simp
  | cons p pattern ih =>
      by_cases hStar : p = '*'
      · subst hStar
        simp [mem_filled_star, ih]
      · simp [mem_filled_cons hStar, hStar]

/-- Characters other than stars stand for themselves. -/
theorem mem_filled_append {literal : List Char} (hLiteral : '*' ∉ literal)
    {pattern name : List Char} :
    name ∈ filled (literal ++ pattern) ↔
      ∃ end_, name = literal ++ end_ ∧ end_ ∈ filled pattern := by
  induction literal generalizing name with
  | nil => simp
  | cons c literal ih =>
      obtain ⟨hPlain, hRest⟩ := List.ne_and_not_mem_of_not_mem_cons hLiteral
      simp only [List.cons_append, mem_filled_cons (Ne.symm hPlain), ih hRest]
      constructor
      · rintro ⟨_, rfl, end_, rfl, hEnd⟩
        exact ⟨end_, rfl, hEnd⟩
      · rintro ⟨end_, rfl, hEnd⟩
        exact ⟨_, rfl, end_, rfl, hEnd⟩

theorem append_mem_filled_append {literal : List Char} (hLiteral : '*' ∉ literal)
    {pattern name : List Char} :
    literal ++ name ∈ filled (literal ++ pattern) ↔ name ∈ filled pattern := by
  rw [mem_filled_append hLiteral]
  constructor
  · rintro ⟨end_, hEq, hEnd⟩
    rwa [List.append_cancel_left hEq]
  · exact fun h => ⟨name, rfl, h⟩

/-- What a star takes in when its empty run does not do. -/
theorem cons_mem_filled_star {pattern name : List Char} {c : Char}
    (h : c :: name ∉ filled pattern) :
    c :: name ∈ filled ('*' :: pattern) ↔ name ∈ filled ('*' :: pattern) := by
  simp only [mem_filled_star, List.suffix_cons_iff]
  constructor
  · rintro ⟨end_, rfl | hSuffix, hEnd⟩
    · exact absurd hEnd h
    · exact ⟨end_, hSuffix, hEnd⟩
  · rintro ⟨end_, hSuffix, hEnd⟩
    exact ⟨end_, .inr hSuffix, hEnd⟩

/-- A star that is met makes the choices before it final: if any run of the star before does, the
shortest does. -/
theorem mem_filled_star_append_star {literal : List Char} (hLiteral : '*' ∉ literal)
    {pattern name : List Char} :
    literal ++ name ∈ filled ('*' :: (literal ++ '*' :: pattern)) ↔
      name ∈ filled ('*' :: pattern) := by
  rw [mem_filled_star]
  constructor
  · rintro ⟨end_, hSuffix, hEnd⟩
    obtain ⟨later, rfl, hLater⟩ := (mem_filled_append hLiteral).mp hEnd
    obtain ⟨last, hLast, hMem⟩ := mem_filled_star.mp hLater
    have hLength : later.length ≤ name.length := by
      have := hSuffix.length_le
      simp only [List.length_append] at this
      omega
    have hShort : later <:+ name := List.suffix_of_suffix_length_le
      ((List.suffix_append literal later).trans hSuffix) (List.suffix_append literal name) hLength
    exact mem_filled_star.mpr ⟨last, hLast.trans hShort, hMem⟩
  · exact fun h => ⟨literal ++ name, List.suffix_refl _, (append_mem_filled_append hLiteral).mpr h⟩

/-- Where a character does not fit, the run of the star takes in one more. -/
theorem mem_filled_star_of_miss {literal rest tail pattern name : List Char} {c : Char}
    (hLiteral : '*' ∉ literal) (hRest : rest = literal ++ pattern)
    (hTail : c :: tail = literal ++ name) (hMiss : name ∉ filled pattern) :
    tail ∈ filled ('*' :: rest) ↔ c :: tail ∈ filled ('*' :: rest) := by
  refine (cons_mem_filled_star ?_).symm
  rwa [hTail, hRest, append_mem_filled_append hLiteral]

/-- The matcher after a star, at the place where it has matched `literal` since. -/
theorem afterStar_iff {literal rest tail pattern name : List Char}
    (within : pattern.length ≤ rest.length) (hLiteral : '*' ∉ literal)
    (hRest : rest = literal ++ pattern) (hTail : tail = literal ++ name) :
    afterStar rest tail pattern name within = true ↔ tail ∈ filled ('*' :: rest) := by
  induction rest, tail, pattern, name, within using afterStar.induct generalizing literal with
  | case1 rest tail pattern within =>
      rw [afterStar, ← nil_mem_filled, hTail, hRest, mem_filled_star]
      constructor
      · exact fun h => ⟨_, List.suffix_refl _, (append_mem_filled_append hLiteral).mpr h⟩
      · rintro ⟨end_, hSuffix, hEnd⟩
        obtain ⟨later, rfl, hLater⟩ := (mem_filled_append hLiteral).mp hEnd
        have hLength := hSuffix.length_le
        obtain rfl : later = [] := by
          simp only [List.length_append, List.append_nil] at hLength
          exact List.length_eq_zero_iff.mp (by omega)
        exact hLater
  | case2 rest c name within => simp at hTail
  | case3 rest c name within x tail _ ih =>
      rw [afterStar.eq_def]
      refine (ih List.not_mem_nil rfl rfl).trans ?_
      exact mem_filled_star_of_miss hLiteral hRest hTail nofun
  | case4 rest tail c name pattern within _ ih =>
      rw [afterStar.eq_def]
      refine (ih List.not_mem_nil rfl rfl).trans ?_
      rw [hRest, hTail, mem_filled_star_append_star hLiteral]
  | case5 rest tail name p pattern within hPlain _ ih =>
      rw [afterStar.eq_def]
      dsimp only
      rw [if_neg hPlain, if_pos rfl]
      have hLonger : '*' ∉ literal ++ [p] := by simp [hLiteral, Ne.symm hPlain]
      exact ih hLonger (by simpa using hRest) (by simpa using hTail)
  | case6 rest c name p pattern within hPlain hOther => simp at hTail
  | case7 rest c name p pattern within hPlain hOther x tail _ ih =>
      rw [afterStar.eq_def]
      dsimp only
      rw [if_neg hPlain, if_neg hOther]
      refine (ih List.not_mem_nil rfl rfl).trans <| mem_filled_star_of_miss hLiteral hRest hTail ?_
      rw [mem_filled_cons hPlain]
      rintro ⟨_, hEq, -⟩
      exact hOther (List.cons.inj hEq).1.symm

/-- The matcher of names accepts what a segment stands for. -/
theorem matchesName_iff (pattern name : List Char) :
    matchesName pattern name = true ↔ name ∈ filled pattern := by
  induction pattern generalizing name with
  | nil => cases name <;> simp [matchesName]
  | cons p pattern ih =>
      by_cases hStar : p = '*'
      · subst hStar
        rw [matchesName.eq_def]
        exact afterStar_iff _ List.not_mem_nil rfl rfl
      · rw [mem_filled_cons hStar]
        cases name with
        | nil => simp [matchesName, hStar]
        | cons c name =>
            by_cases hFits : p = c
            · simp [matchesName, ← hFits, hStar, ih]
            · simp [matchesName, hStar, hFits, Ne.symm hFits]

end ChangeGate.Pattern

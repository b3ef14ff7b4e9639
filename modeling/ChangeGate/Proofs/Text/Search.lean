import Mathlib.Data.List.Forall2
import ChangeGate.Text.Search

/-! What a search finds. A match takes in what its parts may, and wherever there is a way for all
parts to match, one is found: going back loses nothing. -/

namespace ChangeGate.Text

/-- What a part may take in. -/
inductive Part.Fits : Part → List Char → Prop where
  | one {kind : Char → Bool} {c : Char} (hKind : kind c = true) : Fits (.one kind) [c]
  | run {kind : Char → Bool} {least : Nat} {greedy : Bool} {run : List Char}
      (hKind : run.all kind = true) (hLeast : least ≤ run.length) :
      Fits (.run kind least greedy) run

theorem Part.fits_one_iff {kind : Char → Bool} {run : List Char} :
    Fits (.one kind) run ↔ ∃ c, kind c = true ∧ run = [c] :=
  ⟨fun | .one hKind => ⟨_, hKind, rfl⟩, fun ⟨_, hKind, hRun⟩ => hRun ▸ .one hKind⟩

theorem Part.fits_run_iff {kind : Char → Bool} {least : Nat} {greedy : Bool} {run : List Char} :
    Fits (.run kind least greedy) run ↔ run.all kind = true ∧ least ≤ run.length :=
  ⟨fun | .run hKind hLeast => ⟨hKind, hLeast⟩, fun ⟨hKind, hLeast⟩ => .run hKind hLeast⟩

variable {β : Type} {next : List Char → Option β} {kind : Char → Bool} {greedy : Bool}
  {parts : List Part} {taken : List (List Char)} {text run rest : List Char}

/-- A run is found if some run of its kind leaves a text that `next` matches. -/
theorem isSome_takeRun {least : Nat} (hKind : run.all kind = true) (hLeast : least ≤ run.length)
    (hNext : (next rest).isSome = true) :
    (takeRun next kind greedy least (run ++ rest)).isSome = true := by
  induction run generalizing least with
  | nil =>
      obtain rfl : least = 0 := Nat.le_zero.mp hLeast
      have hEnd : (endRun next 0 rest).isSome = true := by simpa [endRun] using hNext
      rw [List.nil_append]
      cases rest with
      | nil => exact hEnd
      | cons c rest =>
          rw [takeRun]
          split
          · split <;> simp [Option.orElse_eq_or, hEnd]
          · exact hEnd
  | cons c run ih =>
      obtain ⟨hHere, hRest⟩ := List.all_cons ▸ hKind |> Bool.and_eq_true_iff.mp
      have hMore : (takeRun next kind greedy (least - 1) (run ++ rest)).isSome = true :=
        ih hRest (by simp only [List.length_cons] at hLeast; omega)
      rw [List.cons_append, takeRun, if_pos hHere]
      split <;> simp [Option.orElse_eq_or, hMore]

theorem fits_of_match? (h : match? parts text = some (taken, rest)) :
    List.Forall₂ Part.Fits parts taken ∧ text = taken.flatten ++ rest := by
  induction parts generalizing text taken with
  | nil =>
      cases h
      exact ⟨.nil, rfl⟩
  | cons part parts ih =>
      cases part with
      | one kind =>
          cases text with
          | nil => cases h
          | cons c text =>
              rw [match?] at h
              split at h
              · next hKind =>
                  obtain ⟨⟨taken', rest'⟩, hRest, hEq⟩ := Option.map_eq_some_iff.mp h
                  cases hEq
                  obtain ⟨hFits, rfl⟩ := ih hRest
                  exact ⟨.cons (.one hKind) hFits, rfl⟩
              · cases h
      | run kind least greedy =>
          rw [match?] at h
          obtain ⟨⟨run, taken', rest'⟩, hRun, hEq⟩ := Option.map_eq_some_iff.mp h
          cases hEq
          obtain ⟨hKind, hLeast, left, rfl, hRest⟩ := of_takeRun hRun
          obtain ⟨hFits, rfl⟩ := ih hRest
          exact ⟨.cons (.run hKind hLeast) hFits, by simp⟩

theorem isSome_match? (h : List.Forall₂ Part.Fits parts taken) (rest : List Char) :
    (match? parts (taken.flatten ++ rest)).isSome = true := by
  induction h with
  | nil => rfl
  | cons hFits _ ih =>
      cases hFits with
      | one hKind => simp [match?, hKind, ih]
      | run hKind hLeast =>
          rw [List.flatten_cons, List.append_assoc, match?, Option.isSome_map]
          exact isSome_takeRun hKind hLeast ih

namespace Search

variable {s : Search}

theorem fits_of_at? (h : s.at? text = some (taken, rest)) :
    List.Forall₂ Part.Fits s.parts taken ∧ text = s.opening :: (taken.flatten ++ rest) := by
  cases text with
  | nil => cases h
  | cons c text =>
      rw [at?] at h
      split at h
      · next hOpening =>
          obtain ⟨hFits, rfl⟩ := fits_of_match? h
          exact ⟨hFits, by rw [hOpening]⟩
      · cases h

theorem isSome_at? (h : List.Forall₂ Part.Fits s.parts taken) (rest : List Char) :
    (s.at? (s.opening :: (taken.flatten ++ rest))).isSome = true := by
  rw [at?, if_pos rfl]
  exact isSome_match? h rest

theorem replaceAll_of_at? {value : List (List Char) → List Char}
    (h : s.at? text = some (taken, rest)) :
    s.replaceAll value text = value taken ++ s.replaceAll value rest := by
  cases text with
  | nil => cases h
  | cons c text =>
      rw [replaceAll]
      split
      · next h' => cases h.symm.trans h'; rfl
      · next h' => cases h.symm.trans h'

theorem replaceAll_cons_of_at? {value : List (List Char) → List Char} {c : Char}
    (h : s.at? (c :: text) = none) :
    s.replaceAll value (c :: text) = c :: s.replaceAll value text := by
  rw [replaceAll]
  split
  · next h' => cases h.symm.trans h'
  · rfl

end Search

end ChangeGate.Text

/-!
Cutting a sequence at separators, and the lines of a text. A line ends with a line feed, of which
one carriage return before it is part; the last line may end without one.
-/

namespace ChangeGate.Text

/-- The pieces between the occurrences of `sep`: one more than there are separators. -/
def pieces {α : Type} [DecidableEq α] (sep : α) : List α → List (List α)
  | [] => [[]]
  | a :: rest =>
    if a = sep then [] :: pieces sep rest
    else match pieces sep rest with
      | piece :: others => (a :: piece) :: others
      | [] => [[a]]

@[simp] theorem pieces_nil {α : Type} [DecidableEq α] (sep : α) : pieces sep [] = [[]] := rfl

theorem pieces_ne_nil {α : Type} [DecidableEq α] (sep : α) (l : List α) : pieces sep l ≠ [] := by
  cases l with
  | nil => simp
  | cons a rest =>
    simp only [pieces]
    split
    · simp
    · split <;> simp

/-- Joining the pieces with the separator gives the sequence back. -/
theorem intercalate_pieces {α : Type} [DecidableEq α] (sep : α) (l : List α) :
    List.intercalate [sep] (pieces sep l) = l := by
  induction l with
  | nil => simp [List.intercalate]
  | cons a rest ih =>
    simp only [pieces]
    split
    · next h =>
      obtain ⟨piece, others, hp⟩ := List.exists_cons_of_ne_nil (pieces_ne_nil sep rest)
      rw [hp] at ih ⊢
      simp only [List.intercalate, List.intersperse_cons_cons, List.flatten_cons,
        List.nil_append] at ih ⊢
      rw [ih, h]
      rfl
    · split
      · next piece others hp =>
        rw [hp] at ih
        cases others with
        | nil => simpa [List.intercalate] using ih
        | cons q others =>
          simp only [List.intercalate, List.intersperse_cons_cons, List.flatten_cons,
            List.cons_append] at ih ⊢
          rw [ih]
      · next hp => exact absurd hp (pieces_ne_nil sep rest)

/-- The sequence without `mark` at its end, if it ends in one. -/
def dropFinal {α : Type} [DecidableEq α] (mark : α) (l : List α) : List α :=
  if l.getLast? = some mark then l.dropLast else l

/-- The pieces that are lines: all but a last empty one, each of a terminated line without the
return mark before its feed. The last piece of an unterminated text is kept as it is. -/
def linesWith {α : Type} [DecidableEq α] (feed return_ : α) (l : List α) : List (List α) :=
  let all := pieces feed l
  let terminated := all.dropLast.map (dropFinal return_)
  match all.getLast? with
  | some (a :: rest) => terminated ++ [a :: rest]
  | _ => terminated

def lines (text : List Char) : List (List Char) :=
  linesWith '\n' '\r' text

end ChangeGate.Text

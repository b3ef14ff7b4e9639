import ChangeGate.Text.Lines

/-! Cutting at a separator: the pieces are the sequences without the separator that give the whole
back when they are joined by it. -/

namespace ChangeGate.Text

variable {α : Type} [DecidableEq α] {sep : α}

theorem notMem_of_mem_pieces {l piece : List α} (h : piece ∈ pieces sep l) : sep ∉ piece := by
  induction l generalizing piece with
  | nil =>
      obtain rfl := List.mem_singleton.mp h
      exact List.not_mem_nil
  | cons a rest ih =>
      obtain ⟨first, others, hPieces⟩ := List.exists_cons_of_ne_nil (pieces_ne_nil sep rest)
      simp only [pieces, hPieces] at h ih
      split at h
      · rcases List.mem_cons.mp h with rfl | hMem
        · exact List.not_mem_nil
        · exact ih hMem
      · next hOther =>
          rcases List.mem_cons.mp h with rfl | hMem
          · have hFirst := ih List.mem_cons_self
            simp [Ne.symm hOther, hFirst]
          · exact ih (List.mem_cons_of_mem _ hMem)

/-- Only the pieces, joined, give the sequence back. -/
theorem pieces_intercalate {parts : List (List α)} (hParts : parts ≠ [])
    (hFree : ∀ part ∈ parts, sep ∉ part) : pieces sep ([sep].intercalate parts) = parts := by
  rw [← List.splitOn_intercalate sep (fun _ h => notMem_of_mem_pieces h) (pieces_ne_nil sep _),
    intercalate_pieces, List.splitOn_intercalate sep hFree hParts]

theorem pieces_eq_splitOn (l : List α) : pieces sep l = l.splitOn sep := by
  rw [← List.splitOn_intercalate sep (fun _ h => notMem_of_mem_pieces h) (pieces_ne_nil sep l),
    intercalate_pieces]

theorem pieces_of_notMem {l : List α} (h : sep ∉ l) : pieces sep l = [l] := by
  simpa using pieces_intercalate (List.cons_ne_nil l []) (by simpa using h)

theorem pieces_append_cons (l r : List α) :
    pieces sep (l ++ sep :: r) = pieces sep l ++ pieces sep r := by
  induction l with
  | nil => simp [pieces]
  | cons a l ih =>
      obtain ⟨first, others, hPieces⟩ := List.exists_cons_of_ne_nil (pieces_ne_nil sep l)
      simp only [List.cons_append, pieces, ih, hPieces]
      split <;> rfl

/-- What is joined from parts has the pieces of the parts. -/
theorem pieces_intercalate_eq_flatMap {parts : List (List α)} (hParts : parts ≠ []) :
    pieces sep ([sep].intercalate parts) = parts.flatMap (pieces sep) := by
  induction parts with
  | nil => exact absurd rfl hParts
  | cons part rest ih =>
      cases rest with
      | nil => simp
      | cons next rest =>
          rw [List.intercalate_cons_cons, List.append_assoc, List.singleton_append,
            pieces_append_cons, ih (List.cons_ne_nil _ _)]
          rfl

omit [DecidableEq α] in
/-- Parts that are each followed by the separator. -/
theorem flatten_map_append_sep {parts : List (List α)} (hParts : parts ≠ []) :
    (parts.map (· ++ [sep])).flatten = [sep].intercalate parts ++ [sep] := by
  induction parts with
  | nil => exact absurd rfl hParts
  | cons part rest ih =>
      cases rest with
      | nil => simp
      | cons next rest =>
          rw [List.map_cons, List.flatten_cons, ih (List.cons_ne_nil _ _),
            List.intercalate_cons_cons]
          simp only [List.append_assoc]

theorem flatten_map_pieces (l : List α) :
    ((pieces sep l).map (· ++ [sep])).flatten = l ++ [sep] := by
  rw [flatten_map_append_sep (pieces_ne_nil sep l), intercalate_pieces]

theorem mem_of_mem_pieces {l piece : List α} {a : α} (hPiece : piece ∈ pieces sep l)
    (hMem : a ∈ piece) : a ∈ l := by
  have hJoined : a ∈ l ++ [sep] := by
    rw [← flatten_map_pieces]
    exact List.mem_flatten_of_mem (List.mem_map_of_mem hPiece) (List.mem_append_left _ hMem)
  rcases List.mem_append.mp hJoined with hHere | hSep
  · exact hHere
  · exact absurd (List.mem_singleton.mp hSep ▸ hMem) (notMem_of_mem_pieces hPiece)

/-- A sequence has one first occurrence of the separator. -/
theorem append_cons_inj {l l' r r' : List α} (h : sep ∉ l) (h' : sep ∉ l')
    (hEq : l ++ sep :: r = l' ++ sep :: r') : l = l' ∧ r = r' := by
  have hPieces := congrArg (pieces sep) hEq
  rw [pieces_append_cons, pieces_append_cons, pieces_of_notMem h, pieces_of_notMem h'] at hPieces
  obtain rfl := (List.cons.inj hPieces).1
  exact ⟨rfl, (List.cons.inj (List.append_cancel_left hEq)).2⟩

end ChangeGate.Text

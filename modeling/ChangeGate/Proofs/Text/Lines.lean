import ChangeGate.Proofs.Text.Pieces
import ChangeGate.Proofs.Text.Utf8

/-! The lines of a text, by its first line and the text after it. -/

namespace ChangeGate.Text

variable {α : Type} [DecidableEq α] {feed ret : α}

/-- A text has a first line, which ends with a feed, or is a line without an end. -/
@[elab_as_elim]
theorem lines_induction (feed : α) {P : List α → Prop} (last : ∀ line, feed ∉ line → P line)
    (cons : ∀ line rest, feed ∉ line → P rest → P (line ++ feed :: rest)) (text : List α) :
    P text := by
  by_cases hFeed : feed ∈ text
  · obtain ⟨line, rest, hText, hLine⟩ := List.eq_append_cons_of_mem hFeed
    have hShorter : rest.length < text.length := by
      simp only [hText, List.length_append, List.length_cons]
      omega
    rw [hText]
    exact cons line rest hLine (lines_induction feed last cons rest)
  · exact last text hFeed
termination_by text.length

theorem dropFinal_append_self (l : List α) : dropFinal ret (l ++ [ret]) = l := by
  simp [dropFinal]

theorem dropFinal_of_ne {l : List α} (h : l.getLast? ≠ some ret) : dropFinal ret l = l :=
  if_neg h

/-- What stands before a feed is what is kept of it, and a return if it ends in one. -/
theorem eq_dropFinal_append (ret : α) (l : List α) :
    l = dropFinal ret l ∨ l = dropFinal ret l ++ [ret] := by
  by_cases hLast : l.getLast? = some ret
  · obtain ⟨front, rfl⟩ := List.getLast?_eq_some_iff.mp hLast
    exact .inr (by rw [dropFinal_append_self])
  · exact .inl (dropFinal_of_ne hLast).symm

@[simp] theorem linesWith_nil : linesWith feed ret ([] : List α) = [] := rfl

/-- The lines of a text are its first line and the lines of the text after it. -/
theorem linesWith_append_cons {line rest : List α} (hLine : feed ∉ line) :
    linesWith feed ret (line ++ feed :: rest) = dropFinal ret line :: linesWith feed ret rest := by
  have hPieces : pieces feed (line ++ feed :: rest) = line :: pieces feed rest := by
    rw [pieces_append_cons, pieces_of_notMem hLine, List.singleton_append]
  have hSome := pieces_ne_nil feed rest
  simp only [linesWith, hPieces, List.dropLast_cons_of_ne_nil hSome, List.map_cons,
    List.getLast?_cons_of_ne_nil hSome]
  split <;> rfl

/-- A text without a feed is one line, if there is anything in it. -/
theorem linesWith_of_notMem {line : List α} (hLine : feed ∉ line) (hSome : line ≠ []) :
    linesWith feed ret line = [line] := by
  obtain ⟨first, rest, rfl⟩ := List.exists_cons_of_ne_nil hSome
  simp [linesWith, pieces_of_notMem hLine]

theorem linesWith_eq_nil_iff {text : List α} : linesWith feed ret text = [] ↔ text = [] := by
  induction text using lines_induction feed with
  | last line hLine =>
      by_cases hNil : line = []
      · simp [hNil]
      · simp [linesWith_of_notMem hLine hNil, hNil]
  | cons line rest hLine ih => simp [linesWith_append_cons hLine]

theorem notMem_of_mem_linesWith {text line : List α} (h : line ∈ linesWith feed ret text) :
    feed ∉ line := by
  induction text using lines_induction feed with
  | last text hText =>
      by_cases hNil : text = []
      · subst hNil
        cases h
      · rw [linesWith_of_notMem hText hNil] at h
        exact List.mem_singleton.mp h ▸ hText
  | cons first rest hFirst ih =>
      rw [linesWith_append_cons hFirst] at h
      rcases List.mem_cons.mp h with rfl | hLater
      · intro hMem
        rcases eq_dropFinal_append ret first with hSame | hSame
        · exact hFirst (hSame ▸ hMem)
        · exact hFirst (hSame ▸ List.mem_append_left _ hMem)
      · exact ih hLater

/-! The feed and the return are bytes by themselves, so bytes and characters have the same lines. -/

theorem dropFinal_encode (line : List Char) :
    dropFinal 0x0D (Utf8.encode line) = Utf8.encode (dropFinal '\r' line) := by
  by_cases hLast : line.getLast? = some '\r'
  · obtain ⟨front, rfl⟩ := List.getLast?_eq_some_iff.mp hLast
    have hReturn : Utf8.encode ['\r'] = [0x0D] := rfl
    rw [Utf8.encode_append, hReturn, dropFinal_append_self, dropFinal_append_self]
  · rw [dropFinal_of_ne hLast]
    refine dropFinal_of_ne fun hByte => hLast ?_
    -- the last byte belongs to the last character
    rcases List.eq_nil_or_concat line with rfl | ⟨front, c, rfl⟩
    · cases hByte
    · have hChar : Utf8.encode [c] ≠ [] := by simp [Utf8.encode_eq_nil_iff]
      rw [List.concat_eq_append, Utf8.encode_append, List.getLast?_append,
        List.getLast?_eq_some_getLast hChar, Option.some_or] at hByte
      have hHere := Option.some.inj hByte ▸ List.getLast_mem hChar
      have hMem := Utf8.mem_of_mem_encode (by decide) hHere
      rw [List.mem_singleton] at hMem
      rw [List.concat_eq_append, List.getLast?_concat, ← hMem]
      rfl

theorem linesWith_encode (text : List Char) :
    linesWith 0x0A 0x0D (Utf8.encode text) = (lines text).map Utf8.encode := by
  have hBytes : ∀ {line : List Char}, '\n' ∉ line → 0x0A ∉ Utf8.encode line :=
    fun hLine hMem => hLine (Utf8.mem_of_mem_encode (by decide) hMem)
  induction text using lines_induction '\n' with
  | last line hLine =>
      by_cases hNil : line = []
      · subst hNil
        rfl
      · rw [linesWith_of_notMem (hBytes hLine) (mt Utf8.encode_eq_nil_iff.mp hNil), lines,
          linesWith_of_notMem hLine hNil]
        rfl
  | cons line rest hLine ih =>
      have hSplit : Utf8.encode (line ++ '\n' :: rest) =
          Utf8.encode line ++ 0x0A :: Utf8.encode rest := Utf8.encode_append line ('\n' :: rest)
      rw [hSplit, linesWith_append_cons (hBytes hLine), dropFinal_encode, ih, lines, lines,
        linesWith_append_cons hLine]
      rfl

end ChangeGate.Text

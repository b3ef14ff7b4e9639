import Mathlib.Data.List.TakeWhile
import ChangeGate.Text.Blank

/-! What trimming leaves. -/

namespace ChangeGate.Text

variable {before after text : List Char}

theorem trimStart_append (hBefore : ∀ c ∈ before, isBlank c = true) :
    trimStart (before ++ text) = trimStart text :=
  List.dropWhile_append_of_pos hBefore

theorem trimEnd_append (hAfter : ∀ c ∈ after, isBlank c = true) :
    trimEnd (text ++ after) = trimEnd text := by
  rw [trimEnd, List.reverse_append, trimStart_append (by simpa using hAfter), trimEnd]

/-- Blanks around a text make no difference. -/
theorem trim_padded (hBefore : ∀ c ∈ before, isBlank c = true)
    (hAfter : ∀ c ∈ after, isBlank c = true) : trim (before ++ text ++ after) = trim text := by
  rw [trim, List.append_assoc, trimStart_append hBefore, trim]
  -- the start of a blank text goes on into the blanks after it
  by_cases hText : ∀ c ∈ text, isBlank c = true
  · have hAll : trimStart (text ++ after) = [] := by
      rw [trimStart_append hText, trimStart, List.dropWhile_eq_nil_iff]
      exact hAfter
    have hNone : trimStart text = [] := List.dropWhile_eq_nil_iff.mpr hText
    rw [hAll, hNone]
  · have hSome : trimStart text ≠ [] := mt List.dropWhile_eq_nil_iff.mp hText
    have hStart : trimStart (text ++ after) = trimStart text ++ after := by
      rw [trimStart, List.dropWhile_append, if_neg (by simpa [trimStart] using hSome)]
      rfl
    rw [hStart, trimEnd_append hAfter]

/-- A text that neither starts nor ends with a blank is left as it is. -/
theorem trim_eq_self (hFirst : ∀ c, text.head? = some c → isBlank c = false)
    (hLast : ∀ c, text.getLast? = some c → isBlank c = false) : trim text = text := by
  have hStart : ∀ {l : List Char}, (∀ c, l.head? = some c → isBlank c = false) →
      trimStart l = l := by
    intro l hHead
    cases l with
    | nil => rfl
    | cons c l => exact List.dropWhile_cons_of_neg (by simp [hHead c rfl])
  rw [trim, hStart hFirst, trimEnd, hStart (by simpa using hLast), List.reverse_reverse]

theorem mem_of_mem_trim {c : Char} (h : c ∈ trim text) : c ∈ text := by
  have hStart : c ∈ trimStart text := by
    have hReverse := (List.dropWhile_sublist _).subset (List.mem_reverse.mp h)
    exact List.mem_reverse.mp hReverse
  exact (List.dropWhile_sublist _).subset hStart

/-- Trimming the end keeps a first character that is not blank. -/
theorem trimEnd_cons {c : Char} (hFirst : isBlank c = false) :
    trimEnd (c :: text) = c :: trimEnd text := by
  have hOne : [c].dropWhile isBlank = [c] := List.dropWhile_cons_of_neg (by simp [hFirst])
  rw [trimEnd, trimEnd, List.reverse_cons, trimStart, trimStart, List.dropWhile_append, hOne]
  split
  · next hNone => simp [List.isEmpty_iff.mp hNone]
  · simp

theorem trim_cons {c : Char} (hFirst : isBlank c = false) :
    trim (c :: text) = c :: trimEnd text := by
  rw [trim, trimStart, List.dropWhile_cons_of_neg (by simp [hFirst]), trimEnd_cons hFirst]

theorem trim_blank_append (hBefore : ∀ c ∈ before, isBlank c = true) (text : List Char) :
    trim (before ++ text) = trim text := by
  have hPadded : trim (before ++ text ++ []) = trim text :=
    trim_padded hBefore (List.forall_mem_nil _)
  rwa [List.append_nil] at hPadded

theorem trim_append_blank (hAfter : ∀ c ∈ after, isBlank c = true) (text : List Char) :
    trim (text ++ after) = trim text :=
  trim_padded (List.forall_mem_nil _) hAfter

theorem trim_of_blank (hText : ∀ c ∈ text, isBlank c = true) : trim text = [] := by
  simpa using trim_blank_append hText []

/-- What trimming leaves neither starts nor ends with a blank. -/
theorem trim_bounds (text : List Char) : (∀ c, (trim text).head? = some c → isBlank c = false) ∧
    ∀ c, (trim text).getLast? = some c → isBlank c = false := by
  constructor
  · intro c hHead
    cases hStart : trimStart text with
    | nil =>
        rw [trim, hStart] at hHead
        cases hHead
    | cons first rest =>
        have hFirst := head_trimStart hStart
        rw [trim, hStart, trimEnd_cons hFirst] at hHead
        exact Option.some.inj hHead ▸ hFirst
  · intro c hLast
    rw [trim, trimEnd, List.getLast?_reverse] at hLast
    obtain ⟨rest, hStart⟩ := List.head?_eq_some_iff.mp hLast
    exact head_trimStart hStart

/-- What trimming takes away are blanks at either end. -/
theorem exists_blanks_around (text : List Char) :
    ∃ before after, (∀ c ∈ before, isBlank c = true) ∧ (∀ c ∈ after, isBlank c = true) ∧
      text = before ++ trim text ++ after := by
  refine ⟨text.takeWhile isBlank, ((trimStart text).reverse.takeWhile isBlank).reverse,
    fun c hMem => List.mem_takeWhile_imp hMem,
    fun c hMem => List.mem_takeWhile_imp (List.mem_reverse.mp hMem), ?_⟩
  rw [trim, trimEnd, trimStart, List.append_assoc, ← List.reverse_append,
    List.takeWhile_append_dropWhile, List.reverse_reverse, trimStart,
    List.takeWhile_append_dropWhile]

theorem trim_eq_iff {kept : List Char} : trim text = kept ↔ Trims text kept := by
  constructor
  · rintro rfl
    exact ⟨exists_blanks_around text, (trim_bounds text).1, (trim_bounds text).2⟩
  · rintro ⟨⟨before, after, hBefore, hAfter, rfl⟩, hFirst, hLast⟩
    rw [trim_padded hBefore hAfter, trim_eq_self hFirst hLast]

/-- After a text that has no blanks at its ends, only the end of what follows counts. -/
theorem trim_append_eq_self {front back : List Char} (hFront : trim front = front)
    (hSome : front ≠ []) (hLast : ∀ c, back.getLast? = some c → isBlank c = false) :
    trim (front ++ back) = front ++ back := by
  obtain ⟨hFirst, hEnd⟩ := trim_bounds front
  rw [hFront] at hFirst hEnd
  refine trim_eq_self (fun c hHead => ?_) fun c hAtEnd => ?_
  · obtain ⟨first, rest, rfl⟩ := List.exists_cons_of_ne_nil hSome
    exact hFirst c hHead
  · rw [List.getLast?_append] at hAtEnd
    rcases Option.or_eq_some_iff.mp hAtEnd with hBack | ⟨-, hHere⟩
    · exact hLast c hBack
    · exact hEnd c hHere

/-- The printed characters of ASCII are not blank. -/
theorem isBlank_eq_false_of_printed {c : Char} (hLow : 0x20 < c.toNat) (hHigh : c.toNat < 0x7F) :
    isBlank c = false := by
  simp only [isBlank, Bool.or_eq_false_iff, Bool.and_eq_false_iff, decide_eq_false_iff_not,
    beq_eq_false_iff_ne]
  omega

/-- Letters and digits are printed characters of ASCII. -/
theorem printed_of_isAlphanum {c : Char} (h : c.isAlphanum = true) :
    0x20 < c.toNat ∧ c.toNat < 0x7B := by
  have hRanges : ((decide (65 ≤ c.val ∧ c.val ≤ 90) || (97 ≤ c.val && c.val ≤ 122)) ||
      (48 ≤ c.val && c.val ≤ 57)) = true := h
  simp only [Bool.or_eq_true, Bool.and_eq_true, decide_eq_true_eq,
    UInt32.le_iff_toNat_le] at hRanges
  change ((65 ≤ c.toNat ∧ c.toNat ≤ 90) ∨ (97 ≤ c.toNat ∧ c.toNat ≤ 122)) ∨
    (48 ≤ c.toNat ∧ c.toNat ≤ 57) at hRanges
  omega

end ChangeGate.Text

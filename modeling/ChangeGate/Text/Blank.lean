/-!
Blank characters and trimming. A character is blank when it has the Unicode property `White_Space`;
trimming removes blanks at both ends and nothing else.
-/

namespace ChangeGate.Text

/-- The characters with the property `White_Space`. -/
def isBlank (c : Char) : Bool :=
  let n := c.toNat
  (0x09 ≤ n && n ≤ 0x0D) || n == 0x20 || n == 0x85 || n == 0xA0 || n == 0x1680 ||
    (0x2000 ≤ n && n ≤ 0x200A) || n == 0x2028 || n == 0x2029 || n == 0x202F ||
    n == 0x205F || n == 0x3000

/-- The text without the blanks at its start. -/
def trimStart (text : List Char) : List Char :=
  text.dropWhile isBlank

/-- The text without the blanks at its end. -/
def trimEnd (text : List Char) : List Char :=
  (trimStart text.reverse).reverse

/-- The text without the blanks at either end. -/
def trim (text : List Char) : List Char :=
  trimEnd (trimStart text)

/-- What is left of a text without the blanks at either end. -/
structure Trims (text kept : List Char) : Prop where
  around : ∃ before after, (∀ c ∈ before, isBlank c = true) ∧ (∀ c ∈ after, isBlank c = true) ∧
    text = before ++ kept ++ after
  first : ∀ c, kept.head? = some c → isBlank c = false
  last : ∀ c, kept.getLast? = some c → isBlank c = false

/-- Whether the text consists of blanks only. -/
def isBlankText (text : String) : Bool :=
  text.toList.all isBlank

@[simp] theorem trimStart_nil : trimStart [] = [] := rfl

@[simp] theorem trim_nil : trim [] = [] := rfl

/-- What trimming the start leaves does not start with a blank. -/
theorem head_trimStart {text : List Char} {c : Char} {rest : List Char}
    (h : trimStart text = c :: rest) : isBlank c = false := by
  induction text with
  | nil => simp at h
  | cons a text ih =>
    by_cases ha : isBlank a = true
    · exact ih (by simpa [trimStart, ha] using h)
    · simp only [trimStart, List.dropWhile_cons_of_neg ha, List.cons.injEq] at h
      rw [← h.1]
      simpa using ha

end ChangeGate.Text

import ChangeGate.Ident
import ChangeGate.Proofs.Text.Digits

/-! Identifiers are read back from their texts, so different identifiers have different texts. -/

namespace ChangeGate

namespace Uuid

theorem ungroup?_append {n m : Nat} {ns : List Nat} {first : List Char} (hLength : first.length = n)
    (rest : List Char) :
    ungroup? (n :: m :: ns) (first ++ '-' :: rest) =
      (ungroup? (m :: ns) rest).map (first ++ ·) := by
  subst hLength
  simp [ungroup?]

theorem length_digits (u : Uuid) : u.digits.length = 32 := Text.length_hexDigits _ _

/-- Digits in groups of 8, 4, 4, 4 and what is left, joined by hyphens. -/
def grouped (digits : List Char) : List Char :=
  digits.take 8 ++ '-' :: ((digits.drop 8).take 4 ++ '-' :: ((digits.drop 12).take 4 ++ '-' ::
    ((digits.drop 16).take 4 ++ '-' :: digits.drop 20)))

theorem intercalate_groups (digits : List Char) :
    ['-'].intercalate (groups groupLengths digits) = grouped digits := by
  simp [grouped, groups, groupLengths]

theorem chars_eq (u : Uuid) : u.chars = grouped u.digits := intercalate_groups _

theorem mem_grouped {digits : List Char} {c : Char} (h : c ∈ grouped digits) :
    c = '-' ∨ c ∈ digits := by
  rw [grouped] at h
  simp only [List.mem_append, List.mem_cons] at h
  rcases h with h | h | h | h | h | h | h | h | h
  · exact .inr (List.mem_of_mem_take h)
  · exact .inl h
  · exact .inr (List.mem_of_mem_drop (List.mem_of_mem_take h))
  · exact .inl h
  · exact .inr (List.mem_of_mem_drop (List.mem_of_mem_take h))
  · exact .inl h
  · exact .inr (List.mem_of_mem_drop (List.mem_of_mem_take h))
  · exact .inl h
  · exact .inr (List.mem_of_mem_drop h)

/-- The digits of a grouped form are those that were grouped. -/
theorem ungroup?_grouped {digits : List Char} (hLength : digits.length = 32) :
    ungroup? groupLengths (grouped digits) = some digits := by
  have hJoin : ∀ n m, (digits.drop n).take m ++ digits.drop (n + m) = digits.drop n := by
    intro n m
    rw [← List.drop_drop, List.take_append_drop]
  have hLast : ungroup? [12] (digits.drop 20) = some (digits.drop 20) := by
    simp [ungroup?, hLength]
  rw [grouped, groupLengths, ungroup?_append (by simp [hLength]),
    ungroup?_append (by simp [hLength]), ungroup?_append (by simp [hLength]),
    ungroup?_append (by simp [hLength]), hLast]
  simp only [Option.map_some, hJoin 16 4, hJoin 12 4, hJoin 8 4, List.take_append_drop]

theorem length_chars (u : Uuid) : u.chars.length = 36 := by
  simp [chars_eq, grouped, length_digits]

/-- The digits of an identifier are read back. -/
theorem ofDigits?_digits (u : Uuid) : ofDigits? u.digits = some u := by
  have hRead : Text.ofHexDigits? 0 u.digits = some u.bits.toNat := by
    rw [digits, Text.ofHexDigits?_hexDigits, Nat.zero_mul, Nat.zero_add]
    exact congrArg some (Nat.mod_eq_of_lt u.bits.isLt)
  rw [ofDigits?, if_pos u.length_digits, hRead, Option.map_some, ofNat, BitVec.ofNat_toNat,
    BitVec.setWidth_eq]

/-- The grouped form of an identifier is read back. -/
theorem ofGrouped?_chars (u : Uuid) : ofGrouped? u.chars = some u := by
  rw [chars_eq, ofGrouped?, ungroup?_grouped u.length_digits, Option.bind_some, ofDigits?_digits]

theorem utf8Size_of_mem_chars {u : Uuid} {c : Char} (h : c ∈ u.chars) : c.utf8Size = 1 := by
  rcases mem_grouped (chars_eq u ▸ h) with rfl | hDigit
  · rfl
  · exact Text.utf8Size_of_mem_hexDigits hDigit

theorem bytes_eq_length {cs : List Char} (h : ∀ c ∈ cs, c.utf8Size = 1) :
    bytes cs = cs.length := by
  have hFold : ∀ n, cs.foldl (fun n c => n + c.utf8Size) n = n + cs.length := by
    induction cs with
    | nil => exact fun n => rfl
    | cons c cs ih =>
        obtain ⟨hFirst, hRest⟩ := List.forall_mem_cons.mp h
        intro n
        rw [List.foldl_cons, ih hRest, hFirst, List.length_cons]
        omega
  rw [bytes, hFold, Nat.zero_add]

/-- An identifier is read back from its text. -/
theorem ofText?_text (u : Uuid) : ofText? u.text = some u := by
  have hForm : formOf u.chars = .grouped u.chars := by
    rw [formOf, bytes_eq_length fun c => utf8Size_of_mem_chars, length_chars]
    rfl
  rw [ofText?, text, String.toList_ofList, ofChars?, hForm]
  exact ofGrouped?_chars u

theorem chars_injective : Function.Injective chars := by
  intro u v h
  have hRead := ofGrouped?_chars u
  rw [h, ofGrouped?_chars] at hRead
  exact (Option.some.inj hRead).symm

end Uuid

namespace Ident

variable {kind : Kind}

theorem text_injective : Function.Injective (text : Ident kind → String) := by
  intro a b h
  obtain ⟨u⟩ := a
  obtain ⟨v⟩ := b
  have hChars : kind.label ++ u.chars = kind.label ++ v.chars := String.ofList_injective h
  rw [Uuid.chars_injective (List.append_cancel_left hChars)]

end Ident

end ChangeGate

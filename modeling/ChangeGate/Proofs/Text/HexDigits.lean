import Mathlib.Data.List.Induction
import ChangeGate.Proofs.Text.Digits

/-! Hexadecimal digits in either case. They write what the same digits in lower case write, and of a
number there is one way to write it in lower case. -/

namespace ChangeGate.Text

/-- What holds of characters with these numbers can be tried out. -/
theorem forall_of_toNat {P : Char → Prop} (low count : Nat)
    (h : ∀ n < count, P (Char.ofNat (low + n))) {c : Char} (hLow : low ≤ c.toNat)
    (hHigh : c.toNat < low + count) : P c := by
  have hChar : Char.ofNat (low + (c.toNat - low)) = c := by
    rw [Nat.add_sub_cancel' hLow, Char.ofNat_toNat]
  exact hChar ▸ h (c.toNat - low) (by omega)

/-- Letters between `A` and `Z` are put in lower case, and all else stays. -/
theorem toLower_cases {P : Char → Char → Prop}
    (hUpper : ∀ n < 26, P (Char.ofNat (65 + n)) (Char.ofNat (65 + n)).toLower) (c : Char)
    (hOther : P c c) : P c c.toLower := by
  by_cases h : 'A' ≤ c ∧ c ≤ 'Z'
  · exact forall_of_toNat (P := fun c => P c c.toLower) 65 26 hUpper h.1 (Nat.lt_succ_of_le h.2)
  · have hSame : c.toLower = c := dif_neg h
    exact hSame.symm ▸ hOther

/-- A hexadecimal digit is one in either case, with the same value. -/
theorem hexDigit?_toLower (c : Char) : hexDigit? c.toLower = hexDigit? c :=
  toLower_cases (P := fun c lower => hexDigit? lower = hexDigit? c) (by decide) c rfl

theorem utf8Size_toLower (c : Char) : c.toLower.utf8Size = c.utf8Size :=
  toLower_cases (P := fun c lower => lower.utf8Size = c.utf8Size) (by decide) c rfl

theorem isSome_hexDigit?_iff {c : Char} : (hexDigit? c).isSome = true ↔
    ('0' ≤ c ∧ c ≤ '9') ∨ ('a' ≤ c ∧ c ≤ 'f') ∨ ('A' ≤ c ∧ c ≤ 'F') := by
  unfold hexDigit?
  split
  · simp [*]
  split
  · simp [*]
  split <;> simp [*]

/-- In lower case a digit is the digit of its value. -/
theorem of_hexDigit? {c : Char} {d : Nat} (h : hexDigit? c = some d) :
    d < 16 ∧ c.toLower = hexDigit d := by
  have hTried := @forall_of_toNat fun c =>
    ((hexDigit? c).all fun d => d < 16 ∧ c.toLower = hexDigit d) = true
  have hAll : ((hexDigit? c).all fun d => d < 16 ∧ c.toLower = hexDigit d) = true := by
    have hRange := h
    unfold hexDigit? at hRange
    split at hRange
    · next hDigit => exact hTried 48 10 (by decide) hDigit.1 (Nat.lt_succ_of_le hDigit.2)
    split at hRange
    · next hLower => exact hTried 97 6 (by decide) hLower.1 (Nat.lt_succ_of_le hLower.2)
    split at hRange
    · next hUpper => exact hTried 65 6 (by decide) hUpper.1 (Nat.lt_succ_of_le hUpper.2)
    · cases hRange
  simpa [h] using hAll

theorem ofHexDigits?_map_toLower (n : Nat) (cs : List Char) :
    ofHexDigits? n (cs.map Char.toLower) = ofHexDigits? n cs := by
  induction cs generalizing n with
  | nil => rfl
  | cons c cs ih =>
      cases hDigit : hexDigit? c <;> simp [ofHexDigits?, hexDigit?_toLower, hDigit, ih]

/-- Digits are read as a number. -/
theorem exists_ofHexDigits? {cs : List Char} (h : ∀ c ∈ cs, (hexDigit? c).isSome = true) (n : Nat) :
    ∃ m, ofHexDigits? n cs = some m := by
  induction cs generalizing n with
  | nil => exact ⟨n, rfl⟩
  | cons c cs ih =>
      obtain ⟨hFirst, hRest⟩ := List.forall_mem_cons.mp h
      obtain ⟨d, hDigit⟩ := Option.isSome_iff_exists.mp hFirst
      obtain ⟨m, hRead⟩ := ih hRest (16 * n + d)
      exact ⟨m, by simp [ofHexDigits?, hDigit, hRead]⟩

/-- What digits write is below the power of their number, and its digits are these in lower case. -/
theorem of_ofHexDigits? {cs : List Char} {n : Nat} (h : ofHexDigits? 0 cs = some n) :
    n < Nat.pow 16 cs.length ∧ cs.map Char.toLower = hexDigits n cs.length := by
  induction cs using List.reverseRecOn generalizing n with
  | nil =>
      cases h
      exact ⟨Nat.one_pos, rfl⟩
  | append_singleton cs c ih =>
      rw [ofHexDigits?_append] at h
      obtain ⟨m, hFront, hLast⟩ := Option.bind_eq_some_iff.mp h
      obtain ⟨d, hDigit, hValue⟩ := Option.bind_eq_some_iff.mp hLast
      obtain rfl := Option.some.inj hValue
      obtain ⟨hBound, hFrontLower⟩ := ih hFront
      obtain ⟨hSmall, hLower⟩ := of_hexDigit? hDigit
      have hPower : Nat.pow 16 (cs.length + 1) = Nat.pow 16 cs.length * 16 := rfl
      have hQuotient : (16 * m + d) / 16 = m := by omega
      have hRemainder : (16 * m + d) % 16 = d := by omega
      rw [List.length_append, List.length_singleton, hPower]
      refine ⟨by omega, ?_⟩
      rw [hexDigits, hQuotient, hRemainder, List.map_append, hFrontLower, List.map_singleton,
        hLower]

end ChangeGate.Text

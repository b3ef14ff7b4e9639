import ChangeGate.Json.Printer
import ChangeGate.Json.Token
import ChangeGate.Proofs.Text.Digits

/-! Whole numbers of 64 bits, with or without a sign, are read back from their digits. -/

namespace ChangeGate.Json.Number

open Text (digitValue decimalDigit?_of_isDigit ofDigitChars_cons_eq le_ofDigitChars)

/-- Whether a whole number fits 64 bits, with a sign or without. -/
def Fits (i : Int) : Prop := -(Bits.values 63 : Int) ≤ i ∧ i ≤ (maxWord : Int)

instance (i : Int) : Decidable (Fits i) := inferInstanceAs (Decidable (_ ∧ _))

/-- Whether a number ends where a text goes on. -/
def Stops (rest : List Char) : Prop :=
  ∀ c ∈ rest.head?, Text.decimalDigit? c = none ∧ c ≠ '.' ∧ c ≠ 'e' ∧ c ≠ 'E'

theorem stops_nil : Stops [] := nofun

theorem stops_cons {c : Char} {rest : List Char}
    (h : Text.decimalDigit? c = none ∧ c ≠ '.' ∧ c ≠ 'e' ∧ c ≠ 'E') : Stops (c :: rest) := by
  rintro _ ⟨⟩
  exact h

theorem digitsOf_append {digits rest : List Char} (hDigits : ∀ c ∈ digits, c.isDigit = true)
    (hRest : Stops rest) : digitsOf (digits ++ rest) = (digits.map digitValue, rest) := by
  induction digits with
  | nil =>
      cases rest with
      | nil => rfl
      | cons c rest => simp [digitsOf, (hRest c rfl).1]
  | cons c digits ih =>
      obtain ⟨hDigit, hMore⟩ := List.forall_mem_cons.mp hDigits
      simp [digitsOf, decimalDigit?_of_isDigit hDigit, ih hMore]

theorem fractionOf_of_stops {rest : List Char} (h : Stops rest) :
    fractionOf rest = some (none, rest) := by
  cases rest with
  | nil => rfl
  | cons c rest =>
      obtain ⟨-, hPoint, -⟩ := h c rfl
      simp [fractionOf, hPoint]

theorem exponentOf_of_stops {rest : List Char} (h : Stops rest) :
    exponentOf rest = some (none, rest) := by
  cases rest with
  | nil => rfl
  | cons c rest =>
      obtain ⟨-, -, hSmall, hGreat⟩ := h c rfl
      simp [exponentOf, hSmall, hGreat]

/-- Numbers are written without a leading zero. -/
theorem head?_toDigits {n : Nat} (h : n ≠ 0) : (Nat.toDigits 10 n).head? ≠ some '0' := by
  induction n using Nat.strongRecOn with
  | ind n ih =>
      by_cases hSmall : n < 10
      · rw [Nat.toDigits_of_lt_base hSmall]
        have : ∀ n < 10, n ≠ 0 → [Nat.digitChar n].head? ≠ some '0' := by decide
        exact this n hSmall h
      · have hFirst := ih (n / 10) (by omega) (by omega)
        obtain ⟨c, cs, hEq⟩ :=
          List.exists_cons_of_ne_nil (Nat.toDigits_ne_nil (n := n / 10) (b := 10))
        rw [Nat.toDigits_of_base_le (by omega) (by omega), hEq]
        rwa [hEq] at hFirst

/-- The digits of a number. -/
def digits (n : Nat) : List Nat := (Nat.toDigits 10 n).map digitValue

theorem isDigit_of_mem {n : Nat} {c : Char} (h : c ∈ Nat.toDigits 10 n) : c.isDigit = true :=
  Nat.isDigit_of_mem_toDigits (by omega) (by omega) h

theorem eq_zero_of_digitValue {c : Char} (hDigit : c.isDigit = true) (h : digitValue c = 0) :
    c = '0' := by
  have hBounds : '0'.toNat ≤ c.toNat := by
    simp only [Char.isDigit, Bool.and_eq_true, decide_eq_true_eq] at hDigit
    exact hDigit.1
  simp only [digitValue] at h
  exact Char.toNat_inj.mp (by omega)

theorem digits_ne_zero_cons {n d : Nat} {ds : List Nat} : digits n ≠ 0 :: d :: ds := by
  intro h
  obtain ⟨c, cs, hEq, hValue, hRest⟩ := List.map_eq_cons_iff.mp h
  have hDigit : c.isDigit = true := isDigit_of_mem (n := n) (by simp [hEq])
  obtain rfl := eq_zero_of_digitValue hDigit hValue
  by_cases hZero : n = 0
  · subst hZero
    cases hEq
    cases hRest
  · exact head?_toDigits hZero (by simp [hEq])

theorem numeralOf?_natural {n : Nat} {rest : List Char} (hRest : Stops rest) :
    numeralOf? (Nat.toDigits 10 n ++ rest) = some (⟨false, digits n, none, none⟩, rest) := by
  obtain ⟨c, cs, hEq⟩ := List.exists_cons_of_ne_nil (Nat.toDigits_ne_nil (n := n) (b := 10))
  have hUnsigned : c ≠ '-' := by
    rintro rfl
    have hDigit : '-'.isDigit = true := isDigit_of_mem (n := n) (by simp [hEq])
    cases hDigit
  have hDigits := digitsOf_append (fun _ => isDigit_of_mem (n := n)) hRest
  rw [← digits, hEq, List.cons_append] at hDigits
  unfold numeralOf?
  rw [hEq, List.cons_append]
  split
  · next negative text hSign =>
      split at hSign
      · next r hMinus => exact absurd (List.cons.inj hMinus).1 hUnsigned
      · cases hSign
        simp only [hDigits]
        split
        · next hNone => simp [digits] at hNone
        · next hZero => exact absurd hZero digits_ne_zero_cons
        · simp [fractionOf_of_stops hRest, exponentOf_of_stops hRest]

theorem numeralOf?_negative {n : Nat} {rest : List Char} (hRest : Stops rest) :
    numeralOf? ('-' :: (Nat.toDigits 10 n ++ rest)) =
      some (⟨true, digits n, none, none⟩, rest) := by
  have hDigits := digitsOf_append (fun _ => isDigit_of_mem (n := n)) hRest
  rw [← digits] at hDigits
  simp only [numeralOf?, hDigits]
  split
  · next hNone => simp [digits] at hNone
  · next hZero => exact absurd hZero digits_ne_zero_cons
  · simp [fractionOf_of_stops hRest, exponentOf_of_stops hRest]

theorem appendDigits_of_le {cs : List Char} {n : Nat} (h : Nat.ofDigitChars 10 cs n ≤ maxWord) :
    appendDigits n (cs.map digitValue) = (Nat.ofDigitChars 10 cs n, []) := by
  induction cs generalizing n with
  | nil => rfl
  | cons c cs ih =>
      rw [ofDigitChars_cons_eq] at h ⊢
      have hFits := Nat.le_trans (le_ofDigitChars cs _) h
      rw [List.map_cons, appendDigits, if_pos hFits, ih h]

theorem appendDigits_digits {n : Nat} (h : n ≤ maxWord) : appendDigits 0 (digits n) = (n, []) := by
  have hValue := Nat.ofDigitChars_ten_toDigits (n := n)
  rw [digits, appendDigits_of_le (by rwa [hValue]), hValue]

theorem ofNumeral?_natural {n : Nat} (h : n ≤ maxWord) :
    ofNumeral? ⟨false, digits n, none, none⟩ = some (.int n) := by
  simp [ofNumeral?, appendDigits_digits h]

theorem ofNumeral?_negative {n : Nat} (hPos : n ≠ 0) (h : n ≤ Bits.values 63) :
    ofNumeral? ⟨true, digits n, none, none⟩ = some (.int (-n)) := by
  have hWord : n ≤ maxWord := Nat.le_trans h (by decide)
  have hWithin : ¬ (n = 0 ∨ Bits.values 63 < n) := by omega
  simp only [ofNumeral?, appendDigits_digits hWord]
  rw [if_neg hWithin]
  rfl

end ChangeGate.Json.Number

import ChangeGate.Text.Blank
import ChangeGate.Text.Digits

/-! Digits and the numbers that they write. -/

namespace ChangeGate.Text

/-- The value of a digit. -/
def digitValue (c : Char) : Nat := c.toNat - '0'.toNat

theorem decimalDigit?_of_isDigit {c : Char} (h : c.isDigit = true) :
    decimalDigit? c = some (digitValue c) := by
  have hBounds : '0' ≤ c ∧ c ≤ '9' := by
    simpa [Char.isDigit, Char.le_def] using h
  simp [decimalDigit?, hBounds, digitValue]

/-- What has the value of a digit is one. -/
theorem of_decimalDigit? {c : Char} {d : Nat} (h : decimalDigit? c = some d) :
    c.isDigit = true ∧ d = digitValue c := by
  unfold decimalDigit? at h
  split at h
  · next hBounds =>
      refine ⟨?_, (Option.some.inj h).symm⟩
      simpa [Char.isDigit, Char.le_def] using hBounds
  · cases h

theorem toNat_of_isDigit {c : Char} (h : c.isDigit = true) : 48 ≤ c.toNat ∧ c.toNat ≤ 57 := by
  simp only [Char.isDigit, Bool.and_eq_true, decide_eq_true_eq] at h
  exact h

theorem digitValue_lt {c : Char} (h : c.isDigit = true) : digitValue c < 10 := by
  have hBounds := toNat_of_isDigit h
  change c.toNat - 48 < 10
  omega

theorem isBlank_of_isDigit {c : Char} (h : c.isDigit = true) : isBlank c = false := by
  have hBounds := toNat_of_isDigit h
  simp only [isBlank, Bool.or_eq_false_iff, Bool.and_eq_false_iff, decide_eq_false_iff_not,
    beq_eq_false_iff_ne, Nat.not_le, ne_eq]
  omega

theorem ofDigitChars_cons_eq (c : Char) (cs : List Char) (n : Nat) :
    Nat.ofDigitChars 10 (c :: cs) n = Nat.ofDigitChars 10 cs (n * 10 + digitValue c) := by
  rw [Nat.ofDigitChars_cons, Nat.mul_comm, digitValue]

theorem le_ofDigitChars (cs : List Char) (n : Nat) : n ≤ Nat.ofDigitChars 10 cs n := by
  induction cs generalizing n with
  | nil => exact Nat.le_refl n
  | cons c cs ih =>
      have hRest := ih (n * 10 + digitValue c)
      rw [ofDigitChars_cons_eq]
      omega

/-- The number of digits bounds what they write. -/
theorem ofDigitChars_lt {cs : List Char} (hDigits : ∀ c ∈ cs, c.isDigit = true) (n : Nat) :
    Nat.ofDigitChars 10 cs n < (n + 1) * Nat.pow 10 cs.length := by
  induction cs generalizing n with
  | nil => exact Nat.lt_of_lt_of_eq (Nat.lt_succ_self n) (Nat.mul_one _).symm
  | cons c cs ih =>
      obtain ⟨hDigit, hMore⟩ := List.forall_mem_cons.mp hDigits
      have hFirst : n * 10 + digitValue c + 1 ≤ (n + 1) * 10 := by
        have hValue := digitValue_lt hDigit
        omega
      calc Nat.ofDigitChars 10 (c :: cs) n
        _ = Nat.ofDigitChars 10 cs (n * 10 + digitValue c) := ofDigitChars_cons_eq c cs n
        _ < (n * 10 + digitValue c + 1) * Nat.pow 10 cs.length := ih hMore _
        _ ≤ (n + 1) * 10 * Nat.pow 10 cs.length := Nat.mul_le_mul_right _ hFirst
        _ = (n + 1) * (Nat.pow 10 cs.length * 10) := by rw [Nat.mul_assoc, Nat.mul_comm 10]

theorem ofHexDigits?_append (k : Nat) (first rest : List Char) :
    ofHexDigits? k (first ++ rest) = (ofHexDigits? k first).bind (ofHexDigits? · rest) := by
  induction first generalizing k with
  | nil => rfl
  | cons c first ih =>
      cases hDigit : hexDigit? c with
      | none => simp [ofHexDigits?, hDigit]
      | some d => simp [ofHexDigits?, hDigit, ih]

/-- The last digits of a number, read after others, add what the number is modulo their power. -/
theorem ofHexDigits?_hexDigits (k n count : Nat) :
    ofHexDigits? k (hexDigits n count) =
      some (k * Nat.pow 16 count + n % Nat.pow 16 count) := by
  induction count generalizing n with
  | zero => simp [hexDigits, ofHexDigits?, Nat.mod_one]
  | succ count ih =>
      have hLast : hexDigit? (hexDigit (n % 16)) = some (n % 16) :=
        hexDigit?_hexDigit (Nat.mod_lt _ (by decide))
      have hPower : Nat.pow 16 (count + 1) = 16 * Nat.pow 16 count := Nat.mul_comm _ _
      have hMod : n % (16 * Nat.pow 16 count) = n % 16 + 16 * (n / 16 % Nat.pow 16 count) :=
        Nat.mod_mul
      rw [hexDigits, ofHexDigits?_append, ih, hPower, hMod, Nat.mul_left_comm]
      simp only [Option.bind_some, ofHexDigits?, hLast, Option.bind_eq_bind, Option.some.injEq]
      omega

theorem length_hexDigits (n count : Nat) : (hexDigits n count).length = count := by
  induction count generalizing n with
  | zero => rfl
  | succ count ih => rw [hexDigits, List.length_append, ih, List.length_singleton]

theorem exists_of_mem_hexDigits {c : Char} {n count : Nat} (h : c ∈ hexDigits n count) :
    ∃ d < 16, c = hexDigit d := by
  induction count generalizing n with
  | zero => cases h
  | succ count ih =>
      rcases List.mem_append.mp h with hFirst | hLast
      · exact ih hFirst
      · exact ⟨n % 16, Nat.mod_lt _ (by decide), List.mem_singleton.mp hLast⟩

theorem utf8Size_of_mem_hexDigits {c : Char} {n count : Nat} (h : c ∈ hexDigits n count) :
    c.utf8Size = 1 := by
  have hDigits : ∀ d < 16, (hexDigit d).utf8Size = 1 := by decide
  obtain ⟨d, hSmall, rfl⟩ := exists_of_mem_hexDigits h
  exact hDigits d hSmall

end ChangeGate.Text

import Mathlib.Data.List.TakeWhile
import ChangeGate.Proofs.Except
import ChangeGate.Proofs.Text.Digits
import ChangeGate.Timestamp

/-! Instants are read back from their texts. An instant that is read, at whatever offset, is on the
calendar and within its day, and it has a whole second too many only at the end of a minute; every
such instant is read back from the text it is written as. -/

namespace ChangeGate.Timestamp

open Text

/-- An instant that can be told from a text: its day is on the calendar, its second is one of the
day, and only in the last second of a minute the nanoseconds run on for another one. -/
def InRange (t : Timestamp) : Prop :=
  t.date.IsValid ∧ t.second < 86400 ∧
    (t.nano < perSecond ∨ t.nano < 2 * perSecond ∧ t.second % 60 = 59)

instance (t : Timestamp) : Decidable t.InRange := inferInstanceAs (Decidable (_ ∧ _ ∧ _))

/-- A text does not start with a digit. -/
def EndsDigits (rest : List Char) : Prop := ∀ c ∈ rest.head?, decimalDigit? c = none

theorem endsDigits_cons {c : Char} {rest : List Char} (h : decimalDigit? c = none) :
    EndsDigits (c :: rest) := by
  rintro _ ⟨⟩
  exact h

section Numbers

variable {cs rest : List Char} {n most width : Nat}

theorem moreDigits_append (hDigits : ∀ c ∈ cs, c.isDigit = true) (hMost : cs.length ≤ most)
    (hEnds : cs.length = most ∨ EndsDigits rest) (hFits : Nat.ofDigitChars 10 cs n ≤ maxNumber) :
    moreDigits n most (cs ++ rest) = .ok (Nat.ofDigitChars 10 cs n, rest) := by
  induction cs generalizing n most with
  | nil =>
      rw [Nat.ofDigitChars_nil, List.nil_append]
      cases rest with
      | nil => simp only [moreDigits]
      | cons c rest =>
          unfold moreDigits
          split
          · next hDigit =>
              rcases hEnds with hNone | hEnds
              · cases hNone
              · rw [hEnds c rfl] at hDigit
                cases hDigit
          · rfl
  | cons c cs ih =>
      obtain ⟨hDigit, hMore⟩ := List.forall_mem_cons.mp hDigits
      rw [ofDigitChars_cons_eq] at hFits ⊢
      cases most with
      | zero => cases hMost
      | succ most =>
          have hSmall : ¬ maxNumber < n * 10 + digitValue c :=
            Nat.not_lt.mpr (Nat.le_trans (le_ofDigitChars cs _) hFits)
          rw [List.cons_append, moreDigits.eq_def]
          simp only [decimalDigit?_of_isDigit hDigit, if_neg hSmall]
          exact ih hMore (Nat.le_of_succ_le_succ hMost) (hEnds.imp_left Nat.succ.inj) hFits

/-- A number is read from its digits, where it ends. -/
theorem number_append (hSome : cs ≠ []) (hDigits : ∀ c ∈ cs, c.isDigit = true)
    (hMost : cs.length ≤ most) (hEnds : cs.length = most ∨ EndsDigits rest)
    (hFits : Nat.ofDigitChars 10 cs 0 ≤ maxNumber) :
    number most (cs ++ rest) = .ok (Nat.ofDigitChars 10 cs 0, rest) := by
  obtain ⟨c, cs, rfl⟩ := List.exists_cons_of_ne_nil hSome
  obtain ⟨hDigit, hMore⟩ := List.forall_mem_cons.mp hDigits
  rw [ofDigitChars_cons_eq, Nat.zero_mul, Nat.zero_add] at hFits ⊢
  simp only [List.cons_append, number, decimalDigit?_of_isDigit hDigit]
  rw [List.length_cons] at hMost hEnds
  exact moreDigits_append hMore (by omega) (hEnds.imp_left (by omega)) hFits

theorem padded_eq (width n : Nat) : padded width n =
    List.replicate (width - (Nat.toDigits 10 n).length) '0' ++ Nat.toDigits 10 n := by
  have hDigits : (toString n).toList = Nat.toDigits 10 n := String.toList_ofList
  rw [padded, hDigits]

theorem isDigit_of_mem_padded {c : Char} (h : c ∈ padded width n) : c.isDigit = true := by
  rw [padded_eq] at h
  rcases List.mem_append.mp h with hZero | hDigit
  · rw [List.eq_of_mem_replicate hZero]
    rfl
  · exact Nat.isDigit_of_mem_toDigits (by omega) (by omega) hDigit

theorem ofDigitChars_padded (width n : Nat) : Nat.ofDigitChars 10 (padded width n) 0 = n := by
  rw [padded_eq, Nat.ofDigitChars_append, Nat.ofDigitChars_replicate_zero, Nat.mul_zero,
    Nat.ofDigitChars_ten_toDigits]

theorem padded_ne_nil (width n : Nat) : padded width n ≠ [] := by
  rw [padded_eq]
  exact List.append_ne_nil_of_right_ne_nil _ Nat.toDigits_ne_nil

theorem length_padded (hWidth : 0 < width) (h : n < Nat.pow 10 width) :
    (padded width n).length = width := by
  have hLength := (Nat.length_toDigits_le_iff (by omega) hWidth).mpr h
  rw [padded_eq, List.length_append, List.length_replicate]
  omega

theorem number_padded (hMost : (padded width n).length ≤ most)
    (hEnds : (padded width n).length = most ∨ EndsDigits rest) (hFits : n ≤ maxNumber) :
    number most (padded width n ++ rest) = .ok (n, rest) := by
  have hRead := number_append (padded_ne_nil width n) (fun _ => isDigit_of_mem_padded) hMost hEnds
  rw [ofDigitChars_padded] at hRead
  exact hRead hFits

end Numbers

section Written

variable {n low high : Nat} {rest : List Char}

theorem trimStart_padded (width n : Nat) (rest : List Char) :
    trimStart (padded width n ++ rest) = padded width n ++ rest := by
  obtain ⟨c, cs, hEq⟩ := List.exists_cons_of_ne_nil (padded_ne_nil width n)
  have hDigit : c.isDigit = true := isDigit_of_mem_padded (hEq ▸ List.mem_cons_self)
  rw [hEq, List.cons_append]
  exact List.dropWhile_cons_of_neg (by simp [isBlank_of_isDigit hDigit])

theorem part_padded (hLow : low ≤ n) (hHigh : n ≤ high) (hTwo : high < 100) (rest : List Char) :
    part low high (padded 2 n ++ rest) = .ok (n, rest) := by
  have hFits : n ≤ maxNumber := Nat.le_trans hHigh (Nat.le_trans hTwo.le (by decide))
  have hWidth : (padded 2 n).length = 2 := length_padded (by omega) (show n < 100 by omega)
  rw [part, trimStart_padded, number_padded hWidth.le (.inl hWidth) hFits]
  change (if low ≤ n ∧ n ≤ high then _ else _) = _
  rw [if_pos ⟨hLow, hHigh⟩]
  rfl

theorem mark_cons {c : Char} (h : isBlank c = false) (rest : List Char) :
    mark c (c :: rest) = .ok rest := by
  have hStart : trimStart (c :: rest) = c :: rest := List.dropWhile_cons_of_neg (by simp [h])
  rw [mark, hStart]
  exact if_pos rfl

/-- A year is read, with or without a sign, up to what is no digit. The bound is kept apart, as it
is too large a number to count with. -/
theorem yearPart_of_bound {year : Int} {bound : Nat} (hMin : Date.minYear ≤ year)
    (hMax : year ≤ Date.maxYear) (hBound : Bits.values 31 = bound)
    (hWord : -(bound : Int) ≤ year ∧ year < bound) (hEnds : EndsDigits rest) :
    yearPart (yearText year ++ rest) = .ok (year, rest) := by
  simp only [Date.minYear] at hMin
  simp only [Date.maxYear] at hMax
  have hFits : ∀ n ≤ 262143, n ≤ maxNumber := fun n h => Nat.le_trans h (by decide)
  -- after a sign, all of the text may be digits
  have hSigned : ∀ n ≤ 262143, number (padded 4 n ++ rest).length (padded 4 n ++ rest) =
      .ok (n, rest) := by
    intro n h
    have hMost : (padded 4 n).length ≤ (padded 4 n ++ rest).length := by simp
    exact number_padded hMost (.inr hEnds) (hFits n h)
  unfold yearPart
  rw [hBound]
  by_cases hFour : 0 ≤ year ∧ year ≤ 9999
  · have hWidth : (padded 4 year.toNat).length = 4 :=
      length_padded (by omega) (show year.toNat < 10000 by omega)
    have hRead : number 4 (padded 4 year.toNat ++ rest) = .ok (year.toNat, rest) :=
      number_padded hWidth.le (.inl hWidth) (hFits _ (by omega))
    obtain ⟨c, cs, hEq⟩ := List.exists_cons_of_ne_nil (padded_ne_nil 4 year.toNat)
    have hDigit : c.isDigit = true := isDigit_of_mem_padded (hEq ▸ List.mem_cons_self)
    have hUnsigned : c ≠ '-' ∧ c ≠ '+' := by
      constructor
      all_goals
        rintro rfl
        cases hDigit
    rw [yearText, if_pos hFour, trimStart_padded]
    rw [hEq, List.cons_append] at hRead ⊢
    split
    · next hSign => exact absurd (List.cons.inj hSign).1 hUnsigned.1
    · next hSign => exact absurd (List.cons.inj hSign).1 hUnsigned.2
    · rw [hRead]
      simp only [bind, Except.bind, pure, Except.pure, Int.toNat_of_nonneg hFour.1, if_pos hWord]
  · by_cases hSign : 0 ≤ year
    · have hStart : ∀ r, trimStart ('+' :: r) = '+' :: r := fun _ => rfl
      rw [yearText, if_neg hFour, if_pos hSign, List.cons_append, hStart]
      split
      · next hOther => cases hOther
      · next hPlus =>
          obtain rfl := (List.cons.inj hPlus).2
          simp only [hSigned year.toNat (by omega), bind, Except.bind, pure, Except.pure,
            Int.toNat_of_nonneg hSign, if_pos hWord]
      · next _ hOther => exact absurd rfl (hOther _)
    · have hStart : ∀ r, trimStart ('-' :: r) = '-' :: r := fun _ => rfl
      have hNegative : -(((-year).toNat : Nat) : Int) = year := by omega
      rw [yearText, if_neg hFour, if_neg hSign, List.cons_append, hStart]
      split
      · next hMinus =>
          obtain rfl := (List.cons.inj hMinus).2
          simp only [hSigned (-year).toNat (by omega), bind, Except.bind, pure, Except.pure,
            hNegative, if_pos hWord]
      · next hOther => cases hOther
      · next hOther _ => exact absurd rfl (hOther _)

theorem yearPart_yearText {year : Int} (hMin : Date.minYear ≤ year) (hMax : year ≤ Date.maxYear)
    (hEnds : EndsDigits rest) : yearPart (yearText year ++ rest) = .ok (year, rest) := by
  have hBits : Bits.values 31 = 2147483648 := by decide
  refine yearPart_of_bound hMin hMax rfl ?_ hEnds
  simp only [Date.minYear] at hMin
  simp only [Date.maxYear] at hMax
  omega

theorem fraction_padded {width : Nat} (hWidth : 0 < width) (hNine : width ≤ 9)
    (h : n < Nat.pow 10 width) :
    fraction ('.' :: (padded width n ++ ['Z'])) = .ok (n * Nat.pow 10 (9 - width), ['Z']) := by
  have hFits : n ≤ maxNumber := by
    have hPower : Nat.pow 10 width ≤ Nat.pow 10 9 := Nat.pow_le_pow_right (by omega) hNine
    have hMax : Nat.pow 10 9 ≤ maxNumber := by decide
    exact Nat.le_trans (Nat.le_of_lt h) (Nat.le_trans hPower hMax)
  have hLength := length_padded hWidth h
  have hRead : number 9 (padded width n ++ ['Z']) = .ok (n, ['Z']) :=
    number_padded (hLength.le.trans hNine) (.inr (endsDigits_cons rfl)) hFits
  rw [fraction, hRead]
  change Except.ok (n * Nat.pow 10 (9 - ((padded width n ++ ['Z']).length - 1)), ['Z']) = _
  rw [List.length_append, hLength, List.length_singleton, Nat.add_sub_cancel]

theorem fraction_fractionText (h : n < perSecond) :
    fraction (fractionText n ++ ['Z']) = .ok (n, ['Z']) := by
  simp only [perSecond] at h
  unfold fractionText
  split
  · next hZero =>
      subst hZero
      rfl
  · split
    · next hMilli =>
        have hThree : n / 1000000 < 1000 := by omega
        rw [List.cons_append, fraction_padded (by omega) (by omega) hThree]
        have hBack : n / 1000000 * Nat.pow 10 (9 - 3) = n :=
          Nat.div_mul_cancel (Nat.dvd_of_mod_eq_zero hMilli)
        rw [hBack]
    · split
      · next hMicro =>
          have hSix : n / 1000 < 1000000 := by omega
          rw [List.cons_append, fraction_padded (by omega) (by omega) hSix]
          have hBack : n / 1000 * Nat.pow 10 (9 - 6) = n :=
            Nat.div_mul_cancel (Nat.dvd_of_mod_eq_zero hMicro)
          rw [hBack]
      · rw [List.cons_append, fraction_padded (by omega) (by omega) h]
        exact congrArg (fun k => Except.ok (k, ['Z'])) (Nat.mul_one n)

/-- The local instant of an instant at no offset is the instant itself. -/
theorem ofLocal_zero {date : Date} {second nano : Nat} (hDate : date.IsValid)
    (hDay : second < 86400) : ofLocal date second nano 0 = .ok ⟨date, second, nano⟩ := by
  have hStart : ¬ ((second : Int) < 0) := by omega
  have hEnd : ¬ (86400 ≤ (second : Int)) := by omega
  rw [ofLocal, Int.sub_zero, if_neg hStart, if_neg hEnd]
  exact if_pos hDate

/-- An instant is read back from its text. -/
theorem ofText_text {t : Timestamp} (h : t.InRange) : ofText t.text = .ok t := by
  obtain ⟨date, second, nano⟩ := t
  obtain ⟨hDate, hDay, hNano⟩ := h
  dsimp only at hDate hDay hNano
  simp only [perSecond] at hNano
  obtain ⟨hMin, hMax, hMonth, hTwelve, hFirst, hLast⟩ := id hDate
  have hDayMax : date.day ≤ 31 := by
    refine hLast.trans ?_
    unfold daysInMonth
    split_ifs <;> omega
  have hText : (text ⟨date, second, nano⟩).toList = yearText date.year ++ '-' ::
      (padded 2 date.month ++ '-' :: (padded 2 date.day ++ 'T' :: (padded 2 (second / 3600) ++
      ':' :: (padded 2 (second / 60 % 60) ++ ':' :: (padded 2 (second % 60 + nano / 1000000000) ++
      (fractionText (nano % 1000000000) ++ ['Z'])))))) := by
    rw [text, String.toList_ofList]
    simp only [List.append_assoc, List.cons_append]
  have hDash : ∀ r, EndsDigits ('-' :: r) := fun r => endsDigits_cons rfl
  have hMinus : ∀ r, mark '-' ('-' :: r) = .ok r := mark_cons rfl
  have hColon : ∀ r, mark ':' (':' :: r) = .ok r := mark_cons rfl
  have hZone : offset (trimStart ['Z']) = .ok (0, []) := rfl
  have hShift : ¬ ((0 : Int) ≤ -86400 ∨ (86400 : Int) ≤ 0) := by omega
  have hFraction := fraction_fractionText (Nat.mod_lt nano (show 0 < perSecond by decide))
  simp only [perSecond] at hFraction
  simp only [ofText, hText, yearPart_yearText hMin hMax (hDash _), hMinus, hColon,
    part_padded hMonth hTwelve (by decide), part_padded hFirst hDayMax (by decide),
    part_padded (Nat.zero_le (second / 3600)) (by omega : second / 3600 ≤ 23) (by decide),
    part_padded (Nat.zero_le (second / 60 % 60)) (by omega : second / 60 % 60 ≤ 59) (by decide),
    part_padded (Nat.zero_le (second % 60 + nano / 1000000000))
      (by omega : second % 60 + nano / 1000000000 ≤ 60) (by decide),
    hFraction, hZone, trimStart_nil, List.isEmpty_nil, Bool.not_true, Bool.false_eq_true,
    not_true_eq_false, hDate, hShift, if_false, bind, Except.bind, pure, Except.pure]
  by_cases hPlain : nano < 1000000000
  · have hSecond : ¬ second % 60 + nano / 1000000000 = 60 := by omega
    have hParts : second / 3600 * 3600 + second / 60 % 60 * 60 +
        (second % 60 + nano / 1000000000) = second := by omega
    rw [if_neg hSecond, hParts, Nat.mod_eq_of_lt hPlain]
    exact ofLocal_zero hDate hDay
  · obtain ⟨hLeap, hMinute⟩ := hNano.resolve_left hPlain
    have hSecond : second % 60 + nano / 1000000000 = 60 := by omega
    have hParts : second / 3600 * 3600 + second / 60 % 60 * 60 + 59 = second := by omega
    have hWhole : nano % 1000000000 + 1000000000 = nano := by omega
    rw [if_pos hSecond, hParts, hWhole]
    exact ofLocal_zero hDate hDay

end Written

/-- What is read as a number of so many digits is below the power of ten that they count to. -/
theorem of_moreDigits {n most k : Nat} {cs rest : List Char}
    (h : moreDigits n most cs = .ok (k, rest)) :
    ∃ digits, cs = digits ++ rest ∧ digits.length ≤ most ∧
      (∀ c ∈ digits, c.isDigit = true) ∧ k = Nat.ofDigitChars 10 digits n := by
  induction cs generalizing n most with
  | nil =>
      simp only [moreDigits] at h
      cases h
      exact ⟨[], rfl, Nat.zero_le _, nofun, rfl⟩
  | cons c cs ih =>
      rw [moreDigits.eq_def] at h
      dsimp only at h
      split at h
      · next most d hDigit =>
          split at h
          · cases h
          · obtain ⟨hIs, rfl⟩ := of_decimalDigit? hDigit
            obtain ⟨digits, rfl, hLength, hDigits, rfl⟩ := ih h
            refine ⟨c :: digits, rfl, Nat.succ_le_succ hLength, ?_, ?_⟩
            · exact List.forall_mem_cons.mpr ⟨hIs, hDigits⟩
            · rw [ofDigitChars_cons_eq]
      · cases h
        exact ⟨[], rfl, Nat.zero_le _, nofun, rfl⟩

theorem of_number {most k : Nat} {cs rest : List Char} (hMost : 0 < most)
    (h : number most cs = .ok (k, rest)) :
    ∃ digits, cs = digits ++ rest ∧ digits.length ≤ most ∧ k < Nat.pow 10 digits.length := by
  unfold number at h
  split at h
  · cases h
  · split at h
    · cases h
    · next hDigit =>
        obtain ⟨hIs, rfl⟩ := of_decimalDigit? hDigit
        obtain ⟨digits, rfl, hLength, hDigits, rfl⟩ := of_moreDigits h
        refine ⟨_ :: digits, rfl, by rw [List.length_cons]; omega, ?_⟩
        have hLess := ofDigitChars_lt (List.forall_mem_cons.mpr ⟨hIs, hDigits⟩) 0
        rwa [ofDigitChars_cons_eq, Nat.zero_mul, Nat.zero_add, Nat.one_mul] at hLess

theorem part_bounds {low high n : Nat} {cs rest : List Char}
    (h : part low high cs = .ok (n, rest)) : low ≤ n ∧ n ≤ high := by
  obtain ⟨⟨k, left⟩, -, h⟩ := ok_of_bind h
  dsimp only at h
  split at h
  · next hWithin =>
      cases h
      exact hWithin
  · cases h

theorem fraction_lt {n : Nat} {cs rest : List Char} (h : fraction cs = .ok (n, rest)) :
    n < perSecond := by
  unfold fraction at h
  split at h
  · obtain ⟨⟨k, left⟩, hNumber, h⟩ := ok_of_bind h
    obtain ⟨digits, rfl, hLength, hLess⟩ := of_number (by omega) hNumber
    cases h
    have hWidth : (digits ++ left).length - left.length = digits.length := by
      rw [List.length_append, Nat.add_sub_cancel]
    rw [hWidth]
    calc k * Nat.pow 10 (9 - digits.length)
      _ < 10 ^ digits.length * 10 ^ (9 - digits.length) :=
        Nat.mul_lt_mul_of_pos_right hLess (Nat.pow_pos (by omega))
      _ = 10 ^ 9 := by rw [← Nat.pow_add, Nat.add_sub_cancel' hLength]
  · cases h
    decide

theorem dvd_offsetDigits {n : Nat} {cs rest : List Char} (h : offsetDigits cs = .ok (n, rest)) :
    60 ∣ n := by
  obtain ⟨⟨a, b, between⟩, -, h⟩ := ok_of_bind h
  obtain ⟨⟨c, d, last⟩, -, h⟩ := ok_of_bind h
  dsimp only at h
  split at h
  · cases h
  · cases h
    omega

/-- Offsets are whole minutes. -/
theorem dvd_offset {shift : Int} {cs rest : List Char} (h : offset cs = .ok (shift, rest)) :
    60 ∣ shift := by
  have hSigned : ∀ (sign : Int) (r : List Char),
      ((offsetDigits r).map fun found => (sign * (found.1 : Int), found.2)) = .ok (shift, rest) →
      60 ∣ shift := by
    intro sign r hSigned
    cases hDigits : offsetDigits r with
    | error fault => rw [hDigits] at hSigned; cases hSigned
    | ok found =>
        rw [hDigits] at hSigned
        cases hSigned
        exact Int.dvd_mul_of_dvd_right (Int.natCast_dvd_natCast.mpr (dvd_offsetDigits hDigits))
  unfold offset at h
  dsimp only at h
  split at h
  · cases h
    exact ⟨0, rfl⟩
  · split at h
    · cases h
    · cases h
      exact ⟨0, rfl⟩
    · cases h
      exact ⟨0, rfl⟩
    · exact hSigned _ _ h
    · exact hSigned _ _ h
    · exact hSigned _ _ h
    · cases h

/-- Taking off an offset of whole minutes of less than a day leaves an instant in range. -/
theorem inRange_of_ofLocal {date : Date} {second nano : Nat} {shift : Int} {t : Timestamp}
    (hDay : second < 86400) (hShift : ¬ (shift ≤ -86400 ∨ 86400 ≤ shift)) (hMinutes : 60 ∣ shift)
    (hNano : nano < perSecond ∨ nano < 2 * perSecond ∧ second % 60 = 59)
    (h : ofLocal date second nano shift = .ok t) : t.InRange := by
  unfold ofLocal at h
  dsimp only at h
  generalize hMoved : (if (second : Int) - shift < 0 then _ else _ : Date × Int) = moved at h
  have hSecond : 0 ≤ moved.2 ∧ moved.2 < 86400 ∧ moved.2 % 60 = (second : Int) % 60 := by
    rw [← hMoved]
    split_ifs
    all_goals
      dsimp only
      omega
  split at h
  · next hValid =>
      cases h
      refine ⟨hValid, by dsimp only; omega, ?_⟩
      dsimp only
      omega
  · cases h

/-- An instant that is read from a text is in range. -/
theorem inRange_of_text {s : String} {t : Timestamp} (h : ofText s = .ok t) : t.InRange := by
  obtain ⟨⟨year, r⟩, -, h⟩ := ok_of_bind h
  obtain ⟨r, -, h⟩ := ok_of_bind h
  obtain ⟨⟨month, r⟩, -, h⟩ := ok_of_bind h
  obtain ⟨r, -, h⟩ := ok_of_bind h
  obtain ⟨⟨day, r⟩, -, h⟩ := ok_of_bind h
  dsimp only at h
  -- whatever stands between the day and the hour, the rest is read in the same way
  split at h
  any_goals cases h
  all_goals
    obtain ⟨r, -, h⟩ := ok_of_bind h
    obtain ⟨⟨hour, r⟩, hHour, h⟩ := ok_of_bind h
    obtain ⟨r, -, h⟩ := ok_of_bind h
    obtain ⟨⟨minute, r⟩, hMinute, h⟩ := ok_of_bind h
    obtain ⟨r, -, h⟩ := ok_of_bind h
    obtain ⟨⟨second, r⟩, hSecond, h⟩ := ok_of_bind h
    obtain ⟨⟨nano, r⟩, hNano, h⟩ := ok_of_bind h
    obtain ⟨⟨shift, r⟩, hOffset, h⟩ := ok_of_bind h
    have hNano := fraction_lt hNano
    have hHour := (part_bounds hHour).2
    have hMinute := (part_bounds hMinute).2
    have hSecond := (part_bounds hSecond).2
    dsimp only at h
    split at h
    · cases h
    · split at h
      · cases h
      · split at h
        · cases h
        · next hShift =>
            split at h
            · next hLeap =>
                exact inRange_of_ofLocal (by omega) hShift (dvd_offset hOffset)
                  (.inr ⟨by simp only [perSecond] at hNano ⊢; omega, by omega⟩) h
            · exact inRange_of_ofLocal (by omega) hShift (dvd_offset hOffset) (.inl hNano) h

end ChangeGate.Timestamp

import ChangeGate.Proofs.Json.Number

/-! The tokens that the parts of a JSON text are read as: the marks and words, the quoted texts, and
the whole numbers. -/

namespace ChangeGate.Json.Token

open Number

/-- A text is scanned as tokens, each of at least one character, where it stands before another
one. -/
structure Scans (text : List Char) (tokens : List Token) (rest : List Char) : Prop where
  length_le : tokens.length ≤ text.length
  scan : ∀ fuel, scanWithin (fuel + tokens.length) (text ++ rest) = tokens ++ scanWithin fuel rest

theorem scans_of_next {c : Char} {cs rest : List Char} {token : Token} (hSpace : isSpace c = false)
    (hToken : token ≠ .fault) (hNext : next c (cs ++ rest) = (token, rest)) :
    Scans (c :: cs) [token] rest := by
  refine ⟨by simp, fun fuel => ?_⟩
  rw [List.length_singleton, List.cons_append, scanWithin, if_neg (by simp [hSpace]), hNext]
  cases token with
  | fault => exact absurd rfl hToken
  | _ => rfl

theorem Scans.append {text text' rest : List Char} {tokens tokens' : List Token}
    (first : Scans text tokens (text' ++ rest)) (second : Scans text' tokens' rest) :
    Scans (text ++ text') (tokens ++ tokens') rest := by
  refine ⟨?_, fun fuel => ?_⟩
  · rw [List.length_append, List.length_append]
    exact Nat.add_le_add first.length_le second.length_le
  · calc
      scanWithin (fuel + (tokens ++ tokens').length) ((text ++ text') ++ rest)
        = scanWithin (fuel + tokens'.length + tokens.length) (text ++ (text' ++ rest)) := by
          rw [List.length_append, List.append_assoc, Nat.add_assoc, Nat.add_comm tokens'.length]
      _ = tokens ++ scanWithin (fuel + tokens'.length) (text' ++ rest) := first.scan _
      _ = (tokens ++ tokens') ++ scanWithin fuel rest := by rw [second.scan, List.append_assoc]

/-- A whole text that is scanned as tokens has no others. -/
theorem Scans.eq {text : List Char} {tokens : List Token} (h : Scans text tokens []) :
    Token.scan text = tokens := by
  obtain ⟨fuel, hFuel⟩ := Nat.exists_eq_add_of_le' h.length_le
  have hScan := h.scan fuel
  rw [← hFuel, List.append_nil] at hScan
  rw [Token.scan, hScan]
  cases fuel <;> simp [scanWithin]

/-- The four digits of a code unit are read back as it. -/
theorem unit?_hexDigit {n : Nat} (h : n < 32) :
    ∃ a b c d, Text.hexDigits n 4 = [a, b, c, d] ∧ unit? a b c d = some n := by
  have hAll : ∀ n < 32,
      unit? '0' '0' (Text.hexDigit (n / 16)) (Text.hexDigit (n % 16)) = some n := by
    decide
  have hTop : n / 16 % 16 = n / 16 := by omega
  have hZero : n / 16 / 16 = 0 := by omega
  exact ⟨'0', '0', _, _, by simp [Text.hexDigits, hTop, hZero]; rfl, hAll n h⟩

/-- A character that stands for itself within a text. -/
theorem quoted?_plain {c : Char} {rest : List Char} (hQuote : c ≠ '"') (hBackslash : c ≠ '\\')
    (hPrinted : ¬ c.toNat < 32) :
    quoted? none (c :: rest) = (quoted? none rest).map fun (q, r) => (q.cons c, r) := by
  rw [quoted?.eq_def]
  split
  · next h => cases h
  · next h => exact absurd (List.cons.inj h).1 hQuote
  · next h => exact absurd (List.cons.inj h).1 hBackslash
  · next h => exact absurd (List.cons.inj h).1 hBackslash
  · next h =>
      obtain ⟨rfl, rfl⟩ := List.cons.inj h
      rw [if_neg hPrinted]
      simp [Quoted.cons]

/-- A character that is written as a mark after a backslash. -/
theorem quoted?_short {mark c : Char} {rest : List Char} (hShort : shortEscape? mark = some c) :
    quoted? none ('\\' :: mark :: rest) = (quoted? none rest).map fun (q, r) => (q.cons c, r) := by
  have hMark : mark ≠ 'u' := by
    rintro rfl
    cases hShort
  simp [quoted?, hMark, hShort, Quoted.cons]

/-- Every character is written so that it is read back. -/
theorem quoted?_escape (c : Char) (rest : List Char) :
    quoted? none (escape c ++ rest) = (quoted? none rest).map fun (q, r) => (q.cons c, r) := by
  by_cases hQuote : c = '"'
  · exact hQuote ▸ quoted?_short rfl
  by_cases hBackslash : c = '\\'
  · exact hBackslash ▸ quoted?_short rfl
  by_cases hFeed : c = '\n'
  · exact hFeed ▸ quoted?_short rfl
  by_cases hReturn : c = '\r'
  · exact hReturn ▸ quoted?_short rfl
  by_cases hTab : c = '\t'
  · exact hTab ▸ quoted?_short rfl
  by_cases hBackspace : c.toNat = 8
  · obtain rfl : c = Char.ofNat 8 := hBackspace ▸ (Char.ofNat_toNat c).symm
    exact quoted?_short rfl
  by_cases hPage : c.toNat = 12
  · obtain rfl : c = Char.ofNat 12 := hPage ▸ (Char.ofNat_toNat c).symm
    exact quoted?_short rfl
  by_cases hControl : c.toNat < 32
  · obtain ⟨a, b, d, e, hDigits, hUnit⟩ := unit?_hexDigit hControl
    have hHigh : isHigh c.toNat = false := by
      simp only [isHigh, Bool.and_eq_false_iff, decide_eq_false_iff_not]
      omega
    have hLow : isLow c.toNat = false := by
      simp only [isLow, Bool.and_eq_false_iff, decide_eq_false_iff_not]
      omega
    simp [escape, hQuote, hBackslash, hFeed, hReturn, hTab, hBackspace, hPage, hControl, hDigits,
      quoted?, hUnit, hHigh, hLow, Quoted.cons]
  · have hPlain : escape c = [c] := by
      simp [escape, hQuote, hBackslash, hFeed, hReturn, hTab, hBackspace, hPage, hControl]
    rw [hPlain, List.singleton_append, quoted?_plain hQuote hBackslash hControl]

theorem quoted?_flatMap (text rest : List Char) :
    quoted? none (text.flatMap escape ++ '"' :: rest) = some (⟨text, true⟩, rest) := by
  induction text with
  | nil => simp [quoted?]
  | cons c text ih =>
      rw [List.flatMap_cons, List.append_assoc, quoted?_escape, ih]
      rfl

theorem scans_quote (text : String) (rest : List Char) :
    Scans (quote text.toList) [.string text] rest := by
  refine scans_of_next rfl nofun ?_
  simp only [List.append_assoc, List.singleton_append, next, quoted?_flatMap]
  simp

/-- A text that starts with a digit or a sign is read as a number. -/
theorem next_of_numeral {c : Char} {rest after : List Char} {numeral : Numeral} {n : Number}
    (hStart : c.isDigit = true ∨ c = '-')
    (hNumeral : numeralOf? (c :: rest) = some (numeral, after))
    (hValue : ofNumeral? numeral = some n) : next c rest = (.number n, after) := by
  unfold next
  split <;> simp_all

theorem isSpace_of_isDigit {c : Char} (h : c.isDigit = true) : isSpace c = false := by
  cases hSpace : isSpace c with
  | false => rfl
  | true =>
      simp only [isSpace, Bool.or_eq_true, decide_eq_true_eq] at hSpace
      obtain ((rfl | rfl) | rfl) | rfl := hSpace <;> cases h

/-- A whole number of 64 bits is read back where no digit, point or exponent comes after it. -/
theorem scans_number {i : Int} {rest : List Char} (hFits : Fits i) (hRest : Stops rest) :
    Scans (Number.int i).text [.number (.int i)] rest := by
  obtain ⟨hLow, hHigh⟩ := hFits
  by_cases hNegative : i < 0
  · obtain ⟨n, rfl⟩ : ∃ n : Nat, i = -n := ⟨i.natAbs, by omega⟩
    have hText : (Number.int (-n)).text = '-' :: Nat.toDigits 10 n := by
      have hNonzero : n ≠ 0 := by omega
      simp [Number.text, Int.toString_eq_repr, Int.repr_eq_if, hNonzero]
    rw [hText]
    exact scans_of_next rfl nofun (next_of_numeral (.inr rfl) (numeralOf?_negative hRest)
      (ofNumeral?_negative (by omega) (by omega)))
  · obtain ⟨n, rfl⟩ : ∃ n : Nat, i = n := ⟨i.natAbs, by omega⟩
    have hText : (Number.int n).text = Nat.toDigits 10 n := by
      simp [Number.text, Int.toString_eq_repr, Int.repr_eq_if]
    have hNumeral := numeralOf?_natural (n := n) hRest
    obtain ⟨c, cs, hEq⟩ := List.exists_cons_of_ne_nil (Nat.toDigits_ne_nil (n := n) (b := 10))
    have hDigit : c.isDigit = true := isDigit_of_mem (n := n) (by simp [hEq])
    rw [hText, hEq]
    rw [hEq] at hNumeral
    exact scans_of_next (isSpace_of_isDigit hDigit) nofun (next_of_numeral (.inl hDigit) hNumeral
      (ofNumeral?_natural (by omega)))

end ChangeGate.Json.Token

import ChangeGate.Proofs.Ident
import ChangeGate.Proofs.Text.HexDigits

/-! The texts that are read as identifiers of 128 bits. They are the four forms of 32 digits, in
either case, and nothing else; which identifier is read goes by the digits alone. -/

namespace ChangeGate.Uuid

/-- 32 hexadecimal digits, in either case. -/
def IsDigits (digits : List Char) : Prop :=
  digits.length = 32 ∧
    ∀ c ∈ digits, ('0' ≤ c ∧ c ≤ '9') ∨ ('a' ≤ c ∧ c ≤ 'f') ∨ ('A' ≤ c ∧ c ≤ 'F')

instance (digits : List Char) : Decidable (IsDigits digits) :=
  have := List.decidableBAll
    (fun c => ('0' ≤ c ∧ c ≤ '9') ∨ ('a' ≤ c ∧ c ≤ 'f') ∨ ('A' ≤ c ∧ c ≤ 'F')) digits
  inferInstanceAs (Decidable (_ ∧ _))

/-- The forms in which digits are written: alone, in groups, and in groups within braces or after
the name space, which goes in either case. -/
inductive Spells (digits : List Char) : List Char → Prop where
  | bare : Spells digits digits
  | hyphenated : Spells digits (grouped digits)
  | braced : Spells digits ('\x7b' :: (grouped digits ++ ['\x7d']))
  | urn {space : List Char} (hSpace : space.map Char.toLower = "urn:uuid:".toList) :
      Spells digits (space ++ grouped digits)

variable {u : Uuid} {cs digits : List Char}

/-- Digits write the identifier whose own digits they are in lower case. -/
theorem ofDigits?_eq_some_iff : ofDigits? cs = some u ↔ cs.map Char.toLower = u.digits := by
  constructor
  · intro h
    unfold ofDigits? at h
    split at h
    · next hLength =>
        obtain ⟨n, hRead, rfl⟩ := Option.map_eq_some_iff.mp h
        obtain ⟨hBound, hLower⟩ := Text.of_ofHexDigits? hRead
        rw [hLength] at hBound hLower
        have hValue : (ofNat n).bits.toNat = n := Nat.mod_eq_of_lt hBound
        rw [hLower, Uuid.digits, hValue]
    · cases h
  · intro h
    have hLength : cs.length = 32 := by
      rw [← u.length_digits, ← h, List.length_map]
    have hRead := u.ofDigits?_digits
    rw [← h] at hRead
    simpa [ofDigits?, hLength, Text.ofHexDigits?_map_toLower] using hRead

theorem isSome_of_mem {c : Char} (hDigits : digits.map Char.toLower = u.digits) (h : c ∈ digits) :
    (Text.hexDigit? c).isSome = true := by
  have hMem : c.toLower ∈ u.digits := hDigits ▸ List.mem_map_of_mem h
  obtain ⟨d, hSmall, hDigit⟩ := Text.exists_of_mem_hexDigits hMem
  rw [← Text.hexDigit?_toLower, hDigit, Text.hexDigit?_hexDigit hSmall]
  rfl

theorem map_toLower_digits (u : Uuid) : u.digits.map Char.toLower = u.digits :=
  ofDigits?_eq_some_iff.mp u.ofDigits?_digits

/-- Any 32 digits are those of an identifier. -/
theorem isDigits_iff : IsDigits digits ↔ ∃ u : Uuid, digits.map Char.toLower = u.digits := by
  constructor
  · rintro ⟨hLength, hDigits⟩
    obtain ⟨n, hRead⟩ := Text.exists_ofHexDigits? (fun c hMem =>
      Text.isSome_hexDigit?_iff.mpr (hDigits c hMem)) 0
    exact ⟨ofNat n, ofDigits?_eq_some_iff.mp (by simp [ofDigits?, hLength, hRead])⟩
  · rintro ⟨u, hLower⟩
    refine ⟨?_, fun c hMem => Text.isSome_hexDigit?_iff.mp (isSome_of_mem hLower hMem)⟩
    rw [← u.length_digits, ← hLower, List.length_map]

/-- What is taken apart into groups was joined from them. -/
theorem of_ungroup? {lengths : List Nat} (h : ungroup? lengths cs = some digits) :
    cs = ['-'].intercalate (groups lengths digits) := by
  -- the last group is the rest of the text, so a single length ends the induction
  induction lengths generalizing cs digits with
  | nil => cases h
  | cons n lengths ih =>
      cases lengths with
      | nil =>
          simp only [ungroup?] at h
          split at h
          · obtain rfl := Option.some.inj h
            simp [groups]
          · cases h
      | cons m lengths =>
          simp only [ungroup?] at h
          split at h
          · next rest hDrop =>
              obtain ⟨more, hMore, rfl⟩ := Option.map_eq_some_iff.mp h
              have hFirst : (cs.take n).length = n := by
                have hBound : 0 < (cs.drop n).length := by simp [hDrop]
                rw [List.length_drop] at hBound
                rw [List.length_take]
                omega
              have hGroups : groups (n :: m :: lengths) (cs.take n ++ more) =
                  cs.take n :: groups (m :: lengths) more := by
                rw [groups, List.take_left' hFirst, List.drop_left' hFirst]
                exact List.cons_ne_nil _ _
              have hSome : groups (m :: lengths) more ≠ [] := by
                cases lengths <;> simp [groups]
              rw [hGroups, List.intercalate_cons_of_ne_nil hSome, ← ih hMore]
              calc cs
                _ = cs.take n ++ cs.drop n := (List.take_append_drop n cs).symm
                _ = cs.take n ++ ['-'] ++ rest := by simp [hDrop]
          · cases h

theorem ofGrouped?_eq_some_iff : ofGrouped? cs = some u ↔
    ∃ digits, digits.map Char.toLower = u.digits ∧ cs = grouped digits := by
  constructor
  · intro h
    obtain ⟨digits, hUngroup, hDigits⟩ := Option.bind_eq_some_iff.mp h
    exact ⟨digits, ofDigits?_eq_some_iff.mp hDigits,
      intercalate_groups digits ▸ of_ungroup? hUngroup⟩
  · rintro ⟨digits, hLower, rfl⟩
    have hLength : digits.length = 32 := (isDigits_iff.mpr ⟨u, hLower⟩).1
    rw [ofGrouped?, ungroup?_grouped hLength, Option.bind_some, ofDigits?_eq_some_iff, hLower]

theorem map_toLower_grouped (digits : List Char) :
    (grouped digits).map Char.toLower = grouped (digits.map Char.toLower) := by
  have hHyphen : '-'.toLower = '-' := by decide
  simp only [grouped, List.map_append, List.map_cons, List.map_take, List.map_drop, hHyphen]

/-- A text of ASCII characters has as many bytes as characters, also before it is put in lower
case. -/
theorem bytes_of_lower {lower : List Char} (h : cs.map Char.toLower = lower)
    (hAscii : ∀ c ∈ lower, c.utf8Size = 1) : bytes cs = lower.length := by
  have hOwn : ∀ c ∈ cs, c.utf8Size = 1 := by
    intro c hMem
    rw [← Text.utf8Size_toLower]
    exact hAscii _ (h ▸ List.mem_map_of_mem hMem)
  rw [bytes_eq_length hOwn, ← h, List.length_map]

/-- The form that a text has decides which part of it is in groups. -/
theorem of_formOf {body : List Char} (h : formOf cs = .grouped body) :
    cs = body ∨ cs = '\x7b' :: (body ++ ['\x7d']) ∨
      ∃ space, space.map Char.toLower = "urn:uuid:".toList ∧ cs = space ++ body := by
  unfold formOf at h
  split at h
  · cases h
  · cases h
    exact .inl rfl
  · cases hBraces : insideBraces? cs with
    | none => simp [hBraces] at h
    | some inside =>
        obtain rfl : inside = body := by simpa [hBraces] using h
        unfold insideBraces? at hBraces
        split at hBraces
        · next rest =>
            split at hBraces
            · next hLast =>
                obtain ⟨body, rfl⟩ := List.getLast?_eq_some_iff.mp hLast
                rw [List.dropLast_concat] at hBraces
                exact .inr (.inl (Option.some.inj hBraces ▸ rfl))
            · cases hBraces
        · cases hBraces
  · cases hUrn : afterUrn? cs with
    | none => simp [hUrn] at h
    | some rest =>
        obtain rfl : rest = body := by simpa [hUrn] using h
        unfold afterUrn? at hUrn
        split at hUrn
        · next hSpace =>
            obtain rfl := Option.some.inj hUrn
            exact .inr (.inr ⟨cs.take 9, hSpace, (List.take_append_drop 9 cs).symm⟩)
        · cases hUrn
  · cases h

/-- What is read as an identifier is one of the forms of its digits. -/
theorem exists_spells_of_ofChars? (h : ofChars? cs = some u) :
    ∃ digits, digits.map Char.toLower = u.digits ∧ Spells digits cs := by
  unfold ofChars? at h
  split at h
  · exact ⟨cs, ofDigits?_eq_some_iff.mp h, .bare⟩
  · next body hForm =>
      obtain ⟨digits, hLower, rfl⟩ := ofGrouped?_eq_some_iff.mp h
      refine ⟨digits, hLower, ?_⟩
      rcases of_formOf hForm with rfl | rfl | ⟨space, hSpace, rfl⟩
      · exact .hyphenated
      · exact .braced
      · exact .urn hSpace
  · cases h

/-- The forms of the digits of an identifier are read as that. -/
theorem Spells.ofChars?_eq (spells : Spells digits cs)
    (hLower : digits.map Char.toLower = u.digits) : ofChars? cs = some u := by
  have hGrouped : (grouped digits).map Char.toLower = u.chars := by
    rw [map_toLower_grouped, hLower, chars_eq]
  have hRead : ofGrouped? (grouped digits) = some u :=
    ofGrouped?_eq_some_iff.mpr ⟨digits, hLower, rfl⟩
  have hAscii : ∀ c ∈ u.chars, c.utf8Size = 1 := fun c => utf8Size_of_mem_chars
  -- the four forms have lengths of their own, by which the reader goes
  cases spells with
  | bare =>
      have hBytes : bytes cs = 32 := by
        rw [bytes_of_lower hLower fun c => Text.utf8Size_of_mem_hexDigits, length_digits]
      simp only [ofChars?, formOf, hBytes]
      exact ofDigits?_eq_some_iff.mpr hLower
  | hyphenated =>
      have hBytes : bytes (grouped digits) = 36 := by
        rw [bytes_of_lower hGrouped hAscii, length_chars]
      simp only [ofChars?, formOf, hBytes]
      exact hRead
  | braced =>
      have hBytes : bytes ('\x7b' :: (grouped digits ++ ['\x7d'])) = 38 := by
        have hBraced : ('\x7b' :: (grouped digits ++ ['\x7d'])).map Char.toLower =
            '\x7b' :: (u.chars ++ ['\x7d']) := by
          rw [List.map_cons, List.map_append, hGrouped]
          rfl
        rw [bytes_of_lower hBraced ?_]
        · simp [length_chars]
        · simp only [List.forall_mem_cons, List.forall_mem_append]
          exact ⟨rfl, hAscii, rfl, List.forall_mem_nil _⟩
      simp only [ofChars?, formOf, hBytes, insideBraces?, List.getLast?_concat,
        List.dropLast_concat, if_true, Option.map_some, Option.getD_some]
      exact hRead
  | @urn space hSpace =>
      have hLength : space.length = 9 := by
        rw [← List.length_map, hSpace]
        rfl
      have hBytes : bytes (space ++ grouped digits) = 45 := by
        have hUrn : (space ++ grouped digits).map Char.toLower =
            "urn:uuid:".toList ++ u.chars := by
          rw [List.map_append, hGrouped, hSpace]
        rw [bytes_of_lower hUrn ?_]
        · simp [length_chars]
        · have hSpaceAscii : ("urn:uuid:".toList.all fun c => c.utf8Size == 1) = true := by decide
          simp only [List.forall_mem_append]
          exact ⟨by simpa using hSpaceAscii, hAscii⟩
      simp only [ofChars?, formOf, hBytes, afterUrn?, List.take_left' hLength,
        List.drop_left' hLength, hSpace, if_true, Option.map_some, Option.getD_some]
      exact hRead

/-- A text is read as an identifier exactly if it is one of the forms of its digits. -/
theorem ofChars?_eq_some_iff : ofChars? cs = some u ↔
    ∃ digits, digits.map Char.toLower = u.digits ∧ Spells digits cs :=
  ⟨exists_spells_of_ofChars?, fun ⟨_, hLower, spells⟩ => spells.ofChars?_eq hLower⟩

end ChangeGate.Uuid

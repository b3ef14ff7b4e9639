import ChangeGate.Text.Utf8

/-! What is encoded is decoded again: every character is read back from its bytes, whatever comes
after them. -/

namespace ChangeGate.Text.Utf8

theorem decode_of_take {lead : UInt8} {bytes rest : List UInt8} {bounds : List (Nat × Nat)}
    {point : Nat} (hLead : following lead.toNat = some bounds)
    (hTake : take bounds (leadBits lead.toNat bounds.length) bytes = (some point, rest)) :
    decode (lead :: bytes) = some (Char.ofNat point) :: decode rest := by
  rw [decode, hLead]
  simp only [hTake, Option.map_some]

/-- A byte within its bounds adds its payload. -/
theorem take_cons {low high point : Nat} {bounds : List (Nat × Nat)} {byte : UInt8}
    {rest : List UInt8} (hLow : low ≤ byte.toNat) (hHigh : byte.toNat ≤ high) :
    take ((low, high) :: bounds) point (byte :: rest) =
      take bounds (point * 64 + byte.toNat % 64) rest := by
  rw [take, if_pos ⟨hLow, hHigh⟩]

theorem following_of_two {lead : Nat} (hLow : 0xC2 ≤ lead) (hHigh : lead < 0xE0) :
    following lead = some [(0x80, 0xBF)] := by
  rw [following, if_neg (by omega), if_neg (by omega), if_pos hHigh]

/-- The byte after the lead of three is bounded further for two leads. -/
theorem following_of_three {lead : Nat} (hLow : 0xE0 ≤ lead) (hHigh : lead < 0xF0) :
    following lead =
      some [(if lead = 0xE0 then 0xA0 else 0x80, if lead = 0xED then 0x9F else 0xBF),
        (0x80, 0xBF)] := by
  by_cases hFirst : lead = 0xE0
  · subst hFirst
    rfl
  · by_cases hLate : lead = 0xED
    · subst hLate
      rfl
    · rw [following, if_neg (by omega), if_neg (by omega), if_neg (by omega), if_neg hFirst,
        if_neg hLate, if_pos hHigh, if_neg hFirst, if_neg hLate]

/-- The byte after the lead of four is bounded further for the first lead and the last. -/
theorem following_of_four {lead : Nat} (hLow : 0xF0 ≤ lead) (hHigh : lead ≤ 0xF4) :
    following lead =
      some [(if lead = 0xF0 then 0x90 else 0x80, if lead = 0xF4 then 0x8F else 0xBF),
        (0x80, 0xBF), (0x80, 0xBF)] := by
  obtain rfl | rfl | rfl | rfl | rfl : lead = 0xF0 ∨ lead = 0xF1 ∨ lead = 0xF2 ∨ lead = 0xF3 ∨
    lead = 0xF4 := by omega
  all_goals rfl

theorem toNat_ofNat {n : Nat} (h : n < 256) : (UInt8.ofNat n).toNat = n := by
  simpa using h

theorem toNat_continuation (n : Nat) : (UInt8.ofNat (n % 64 + 128)).toNat = n % 64 + 128 :=
  toNat_ofNat (by omega)

section

variable {v : Nat} (rest : List UInt8)

theorem decode_one (hHigh : v ≤ 0x7F) :
    decode (.ofNat v :: rest) = some (Char.ofNat v) :: decode rest := by
  have hLead : (UInt8.ofNat v).toNat = v := toNat_ofNat (by omega)
  have hAlone : following v = some [] := by rw [following, if_pos (by omega)]
  refine decode_of_take (hLead ▸ hAlone) ?_
  rw [hLead]
  rfl

theorem decode_two (hLow : 0x7F < v) (hHigh : v ≤ 0x7FF) :
    decode (.ofNat (v / 64 % 32 + 192) :: .ofNat (v % 64 + 128) :: rest) =
      some (Char.ofNat v) :: decode rest := by
  have hLead : (UInt8.ofNat (v / 64 % 32 + 192)).toNat = v / 64 + 192 := by
    rw [toNat_ofNat (by omega)]
    omega
  have hLast := toNat_continuation v
  refine decode_of_take (following_of_two (by omega) (by omega)) ?_
  have hPoint : (v / 64 + 192) % 32 * 64 + (v % 64 + 128) % 64 = v := by omega
  change take _ (leadBits _ 1) _ = _
  rw [take_cons (by omega) (by omega), hLead, hLast]
  exact congrArg (fun point => (some point, rest)) hPoint

theorem decode_three (hLow : 0x7FF < v) (hHigh : v ≤ 0xFFFF) (hValid : v < 0xD800 ∨ 0xDFFF < v) :
    decode (.ofNat (v / 4096 % 16 + 224) :: .ofNat (v / 64 % 64 + 128) ::
        .ofNat (v % 64 + 128) :: rest) = some (Char.ofNat v) :: decode rest := by
  have hLead : (UInt8.ofNat (v / 4096 % 16 + 224)).toNat = v / 4096 + 224 := by
    rw [toNat_ofNat (by omega)]
    omega
  have hMiddle := toNat_continuation (v / 64)
  have hLast := toNat_continuation v
  refine decode_of_take (following_of_three (by omega) (by omega)) ?_
  have hPoint : ((v / 4096 + 224) % 16 * 64 + (v / 64 % 64 + 128) % 64) * 64 +
      (v % 64 + 128) % 64 = v := by omega
  change take _ (leadBits _ 2) _ = _
  rw [take_cons (by split <;> omega) (by split <;> omega), take_cons (by omega) (by omega), hLead,
    hMiddle, hLast]
  exact congrArg (fun point => (some point, rest)) hPoint

theorem decode_four (hLow : 0xFFFF < v) (hHigh : v < 0x110000) :
    decode (.ofNat (v / 262144 % 8 + 240) :: .ofNat (v / 4096 % 64 + 128) ::
        .ofNat (v / 64 % 64 + 128) :: .ofNat (v % 64 + 128) :: rest) =
      some (Char.ofNat v) :: decode rest := by
  have hLead : (UInt8.ofNat (v / 262144 % 8 + 240)).toNat = v / 262144 + 240 := by
    rw [toNat_ofNat (by omega)]
    omega
  have hSecond := toNat_continuation (v / 4096)
  have hMiddle := toNat_continuation (v / 64)
  have hLast := toNat_continuation v
  refine decode_of_take (following_of_four (by omega) (by omega)) ?_
  have hPoint : (((v / 262144 + 240) % 8 * 64 + (v / 4096 % 64 + 128) % 64) * 64 +
      (v / 64 % 64 + 128) % 64) * 64 + (v % 64 + 128) % 64 = v := by omega
  change take _ (leadBits _ 3) _ = _
  rw [take_cons (by split <;> omega) (by split <;> omega), take_cons (by omega) (by omega),
    take_cons (by omega) (by omega), hLead, hSecond, hMiddle, hLast]
  exact congrArg (fun point => (some point, rest)) hPoint

end

theorem decode_encodeChar (c : Char) (rest : List UInt8) :
    decode (String.utf8EncodeChar c ++ rest) = some c :: decode rest := by
  have hBack : some (Char.ofNat c.val.toNat) :: decode rest = some c :: decode rest :=
    congrArg (some · :: decode rest) (Char.ofNat_toNat c)
  have hValid : c.val.toNat < 0xD800 ∨ 0xDFFF < c.val.toNat ∧ c.val.toNat < 0x110000 := c.valid
  rw [← hBack]
  simp only [String.utf8EncodeChar]
  split
  · next hOne => exact decode_one rest hOne
  · split
    · next hTwo => exact decode_two rest (by omega) hTwo
    · split
      · next hThree => exact decode_three rest (by omega) hThree (by omega)
      · exact decode_four rest (by omega) (by omega)

theorem decode_encode (text : List Char) : decode (encode text) = text.map some := by
  induction text with
  | nil => simp [encode, decode]
  | cons c rest ih =>
      rw [encode, List.flatMap_cons, decode_encodeChar]
      exact congrArg (some c :: ·) ih

/-- A text that was written is read back. -/
theorem strict?_encode (text : List Char) : strict? (encode text) = some text := by
  rw [strict?, decode_encode]
  induction text with
  | nil => rfl
  | cons c rest ih => simp [ih]

theorem lenient_encode_append (text : List Char) (rest : List UInt8) :
    lenient (encode text ++ rest) = text ++ lenient rest := by
  induction text with
  | nil => rfl
  | cons c text ih =>
      rw [encode, List.flatMap_cons, List.append_assoc, lenient, decode_encodeChar, List.map_cons]
      exact congrArg (c :: ·) ih

theorem lenient_encode (text : List Char) : lenient (encode text) = text := by
  simpa [lenient, decode] using lenient_encode_append text []

/-! A byte below `80` is a character by itself, wherever it stands: a run that it ends is broken
before it. -/

/-- The bounds of a byte that follows a lead leave out the bytes below `80`. -/
theorem le_of_mem_following {lead : Nat} {bounds : List (Nat × Nat)}
    (hLead : following lead = some bounds) : ∀ bound ∈ bounds, 0x80 ≤ bound.1 := by
  unfold following at hLead
  repeat' split at hLead
  all_goals cases hLead <;> simp

section

variable {byte : UInt8} (hByte : byte.toNat < 0x80)

include hByte

theorem take_append {bounds : List (Nat × Nat)} (hBounds : ∀ bound ∈ bounds, 0x80 ≤ bound.1)
    (point : Nat) (l rest : List UInt8) :
    take bounds point (l ++ byte :: rest) =
      ((take bounds point l).1, (take bounds point l).2 ++ byte :: rest) := by
  induction bounds generalizing point l with
  | nil => rfl
  | cons bound bounds ih =>
      obtain ⟨low, high⟩ := bound
      obtain ⟨hLow, hRest⟩ := List.forall_mem_cons.mp hBounds
      cases l with
      | nil =>
          have hNot : ¬ (low ≤ byte.toNat ∧ byte.toNat ≤ high) := by
            have : 0x80 ≤ low := hLow
            omega
          simp only [List.nil_append, take, if_neg hNot]
      | cons first l =>
          simp only [List.cons_append, take]
          split
          · exact ih hRest _ _
          · rfl

theorem decode_append (l rest : List UInt8) :
    decode (l ++ byte :: rest) = decode l ++ decode (byte :: rest) := by
  induction l using decode.induct with
  | case1 => simp [decode]
  | case2 lead l hLead ih =>
      rw [List.cons_append, decode, decode, hLead]
      exact congrArg (none :: ·) ih
  | case3 lead l bounds hLead found ih =>
      have hTake :=
        take_append hByte (le_of_mem_following hLead) (leadBits lead.toNat bounds.length) l rest
      rw [List.cons_append, decode, decode, hLead]
      simp only [hTake, List.cons_append]
      exact congrArg (_ :: ·) ih

theorem decode_cons (rest : List UInt8) :
    decode (byte :: rest) = some (Char.ofNat byte.toNat) :: decode rest := by
  simpa using decode_one rest (v := byte.toNat) (by omega)

theorem lenient_append (l rest : List UInt8) :
    lenient (l ++ byte :: rest) = lenient l ++ Char.ofNat byte.toNat :: lenient rest := by
  simp [lenient, decode_append hByte, decode_cons hByte]

end

/-- What a take that finds all bytes has read first. -/
theorem of_take_cons {low high point found : Nat} {bounds : List (Nat × Nat)}
    {l rest : List UInt8} (h : take ((low, high) :: bounds) point l = (some found, rest)) :
    ∃ byte l', l = byte :: l' ∧ low ≤ byte.toNat ∧ byte.toNat ≤ high ∧
      take bounds (point * 64 + byte.toNat % 64) l' = (some found, rest) := by
  cases l with
  | nil => cases h
  | cons byte l' =>
      rw [take] at h
      split at h
      · next hWithin => exact ⟨byte, l', rfl, hWithin.1, hWithin.2, h⟩
      · cases h

theorem lead_cases {lead : Nat} {bounds : List (Nat × Nat)}
    (hLead : following lead = some bounds) :
    (lead < 0x80 ∧ bounds = []) ∨ (0xC2 ≤ lead ∧ lead < 0xE0) ∨ (0xE0 ≤ lead ∧ lead < 0xF0) ∨
      (0xF0 ≤ lead ∧ lead ≤ 0xF4) := by
  unfold following at hLead
  repeat' split at hLead
  all_goals cases hLead <;> simp <;> omega

/-- What a lead and the bytes after it stand for is the lead, or a character that takes more than
one byte. -/
theorem valid_of_take {lead found : Nat} {bounds : List (Nat × Nat)} {l rest : List UInt8}
    (hLead : following lead = some bounds)
    (hTake : take bounds (leadBits lead bounds.length) l = (some found, rest)) :
    (found = lead ∧ lead < 0x80) ∨ (0x80 ≤ found ∧ found.isValidChar) := by
  simp only [Nat.isValidChar]
  rcases lead_cases hLead with ⟨hOne, rfl⟩ | ⟨hLow, hHigh⟩ | ⟨hLow, hHigh⟩ | ⟨hLow, hHigh⟩
  · cases hTake
    exact .inl ⟨rfl, hOne⟩
  · cases (following_of_two hLow hHigh).symm.trans hLead
    obtain ⟨second, l₁, -, hFirst, hLast, hEnd⟩ := of_take_cons hTake
    cases hEnd
    simp only [leadBits, List.length_cons, List.length_nil]
    omega
  · cases (following_of_three hLow hHigh).symm.trans hLead
    obtain ⟨second, l₁, -, hFirst, hLast, hMore⟩ := of_take_cons hTake
    obtain ⟨third, l₂, -, hLow₂, hHigh₂, hEnd⟩ := of_take_cons hMore
    cases hEnd
    simp only [leadBits, List.length_cons, List.length_nil]
    split at hFirst <;> split at hLast <;> omega
  · cases (following_of_four hLow hHigh).symm.trans hLead
    obtain ⟨second, l₁, -, hFirst, hLast, hMore⟩ := of_take_cons hTake
    obtain ⟨third, l₂, -, hLow₂, hHigh₂, hMore₂⟩ := of_take_cons hMore
    obtain ⟨fourth, l₃, -, hLow₃, hHigh₃, hEnd⟩ := of_take_cons hMore₂
    cases hEnd
    simp only [leadBits, List.length_cons, List.length_nil]
    split at hFirst <;> split at hLast <;> omega

theorem suffix_take (bounds : List (Nat × Nat)) (point : Nat) (l : List UInt8) :
    (take bounds point l).2 <:+ l := by
  induction bounds generalizing point l with
  | nil => exact List.suffix_refl l
  | cons bound bounds ih =>
      cases l with
      | nil => exact List.suffix_refl []
      | cons byte l =>
          rw [take]
          split
          · exact (ih _ l).trans (List.suffix_cons byte l)
          · exact List.suffix_refl _

/-- A character below `80` is there only as a byte. -/
theorem mem_of_mem_decode {c : Char} (hChar : c.toNat < 0x80) {l : List UInt8}
    (h : some c ∈ decode l) : UInt8.ofNat c.toNat ∈ l := by
  induction l using decode.induct with
  | case1 => simp [decode] at h
  | case2 lead l hLead ih =>
      rw [decode, hLead] at h
      exact List.mem_cons_of_mem _ (ih (by simpa using h))
  | case3 lead l bounds hLead found ih =>
      rw [decode, hLead] at h
      rcases List.mem_cons.mp h with hHere | hLater
      · obtain ⟨point, hPoint, rfl⟩ := Option.map_eq_some_iff.mp hHere.symm
        have hBack : point.isValidChar → (Char.ofNat point).toNat = point := by
          intro hValid
          rw [Char.ofNat, dif_pos hValid]
          rfl
        rcases valid_of_take hLead (Prod.ext hPoint rfl) with ⟨rfl, hOne⟩ | ⟨hLong, hValid⟩
        · simp [hBack (.inl (by omega))]
        · rw [hBack hValid] at hChar
          omega
      · exact List.mem_cons_of_mem _ ((suffix_take _ _ _).subset (ih hLater))

theorem mem_of_mem_lenient {c : Char} (hChar : c.toNat < 0x80) {l : List UInt8}
    (h : c ∈ lenient l) : UInt8.ofNat c.toNat ∈ l := by
  obtain ⟨decoded, hMem, hValue⟩ := List.mem_map.mp h
  cases decoded with
  | some d => exact mem_of_mem_decode hChar (hValue ▸ hMem)
  | none =>
      rw [← hValue] at hChar
      exact absurd hChar (by decide)

theorem lenient_eq_nil_iff {l : List UInt8} : lenient l = [] ↔ l = [] := by
  cases l with
  | nil => simp [lenient, decode]
  | cons lead l =>
      rw [lenient, decode]
      split <;> simp

theorem encode_append (text text' : List Char) :
    encode (text ++ text') = encode text ++ encode text' :=
  List.flatMap_append

theorem encode_eq_nil_iff {text : List Char} : encode text = [] ↔ text = [] := by
  rw [← lenient_eq_nil_iff, lenient_encode]

/-- A byte below `80` is there only as a character. -/
theorem mem_of_mem_encode {byte : UInt8} (hByte : byte.toNat < 0x80) {text : List Char}
    (h : byte ∈ encode text) : Char.ofNat byte.toNat ∈ text := by
  obtain ⟨l, rest, hSplit⟩ := List.append_of_mem h
  have hText := decode_encode text
  rw [hSplit, decode_append hByte, decode_cons hByte] at hText
  have hHere : some (Char.ofNat byte.toNat) ∈ text.map some := by simp [← hText]
  simpa using hHere

end ChangeGate.Text.Utf8

import ChangeGate.Proofs.Form.Scalar
import ChangeGate.Proofs.Uuid

/-! The texts of the identifiers of runs and jobs. As text an identifier carries the word for its
kind, may be given without it, and is never taken for one of the other kind. In JSON it goes
without the word. -/

namespace ChangeGate

namespace Uuid

variable {digits cs : List Char}

/-- What stands first in a form of digits: a digit, a brace or the `u` of the name space. -/
theorem Spells.head (spells : Spells digits cs) (hDigits : IsDigits digits) :
    ∃ c rest, cs = c :: rest ∧
      ((Text.hexDigit? c).isSome = true ∨ c = '\x7b' ∨ c.toLower = 'u') := by
  obtain ⟨hLength, hHex⟩ := hDigits
  cases digits with
  | nil => cases hLength
  | cons d digits =>
      have hFirst := Text.isSome_hexDigit?_iff.mpr (hHex d List.mem_cons_self)
      cases spells with
      | bare => exact ⟨d, digits, rfl, .inl hFirst⟩
      | hyphenated => exact ⟨d, _, rfl, .inl hFirst⟩
      | braced => exact ⟨'\x7b', _, rfl, .inr (.inl rfl)⟩
      | @urn space hSpace =>
          cases space with
          | nil => cases hSpace
          | cons c space => exact ⟨c, _, rfl, .inr (.inr (List.cons.inj hSpace).1)⟩

/-- An identifier is written in characters that JSON leaves as they are. -/
theorem escape_of_mem_chars {u : Uuid} {c : Char} (h : c ∈ u.chars) : Json.escape c = [c] := by
  have hTried : ∀ d < 16, Json.escape (Text.hexDigit d) = [Text.hexDigit d] := by decide
  rcases mem_grouped (chars_eq u ▸ h) with rfl | hDigit
  · rfl
  · obtain ⟨d, hSmall, rfl⟩ := Text.exists_of_mem_hexDigits hDigit
    exact hTried d hSmall

end Uuid

namespace Ident

/-- The forms in which digits write an identifier of a kind: those of the digits, with the word for
the kind in front or without it. -/
inductive Spells (kind : Kind) (digits : List Char) : List Char → Prop where
  | bare {cs : List Char} (form : Uuid.Spells digits cs) : Spells kind digits cs
  | labelled {cs : List Char} (form : Uuid.Spells digits cs) : Spells kind digits (kind.label ++ cs)

variable {kind other : Kind} {id : Ident kind} {digits cs rest : List Char}

theorem bare_labelled (kind : Kind) (rest : List Char) : bare kind (kind.label ++ rest) = rest := by
  rw [bare, if_pos (List.isPrefixOf_iff_prefix.mpr (List.prefix_append _ _)), List.drop_left]

/-- No form of digits starts with the word for a kind. -/
theorem not_spells_labelled (hDigits : Uuid.IsDigits digits) :
    ¬ Uuid.Spells digits (kind.label ++ rest) := by
  intro spells
  obtain ⟨c, left, hText, hFirst⟩ := spells.head hDigits
  cases kind
  all_goals
    obtain ⟨rfl, -⟩ := List.cons.inj hText
    revert hFirst
    decide

theorem bare_of_spells (spells : Uuid.Spells digits cs) (hDigits : Uuid.IsDigits digits) :
    bare kind cs = cs := by
  refine if_neg fun hLabel => ?_
  obtain ⟨rest, rfl⟩ := List.isPrefixOf_iff_prefix.mp hLabel
  exact not_spells_labelled hDigits spells

/-- A text is read as an identifier of a kind exactly if it is a form of its digits. -/
theorem ofText?_eq_some_iff {text : String} : ofText? kind text = some id ↔
    ∃ digits, digits.map Char.toLower = id.uuid.digits ∧ Spells kind digits text.toList := by
  have hRead : ofText? kind text = some id ↔
      Uuid.ofChars? (bare kind text.toList) = some id.uuid := by
    obtain ⟨u⟩ := id
    simp [ofText?]
  rw [hRead, Uuid.ofChars?_eq_some_iff]
  refine exists_congr fun digits => and_congr_right fun hLower => ?_
  have hDigits : Uuid.IsDigits digits := Uuid.isDigits_iff.mpr ⟨_, hLower⟩
  -- the word is taken off where it is there, and no form without it starts like one with it
  generalize text.toList = cs
  constructor
  · intro spells
    by_cases hLabel : kind.label.isPrefixOf cs = true
    · obtain ⟨rest, rfl⟩ := List.isPrefixOf_iff_prefix.mp hLabel
      rw [bare_labelled] at spells
      exact .labelled spells
    · rw [bare, if_neg hLabel] at spells
      exact .bare spells
  · rintro (form | form)
    · rwa [bare_of_spells form hDigits]
    · rwa [bare_labelled]

theorem spells_text (id : Ident kind) : Spells kind id.uuid.digits id.text.toList := by
  rw [text, String.toList_ofList, Uuid.chars_eq]
  exact .labelled .hyphenated

theorem spells_uuid_text (id : Ident kind) : Spells kind id.uuid.digits id.uuid.text.toList := by
  rw [Uuid.text, String.toList_ofList, Uuid.chars_eq]
  exact .bare .hyphenated

/-- The text of an identifier is not read as one of another kind. -/
theorem ofText?_text_of_ne (hOther : other ≠ kind) (id : Ident kind) :
    ofText? other id.text = none := by
  refine Option.eq_none_iff_forall_ne_some.mpr fun read hRead => ?_
  obtain ⟨digits, hLower, spells⟩ := ofText?_eq_some_iff.mp hRead
  rw [text, String.toList_ofList] at spells
  generalize hText : kind.label ++ id.uuid.chars = cs at spells
  cases spells with
  | bare form =>
      subst hText
      exact not_spells_labelled (Uuid.isDigits_iff.mpr ⟨_, hLower⟩) form
  | labelled form =>
      -- the words for the two kinds differ in their first letter
      cases kind with
      | run =>
          cases other with
          | run => exact hOther rfl
          | job => cases hText
      | job =>
          cases other with
          | run => cases hText
          | job => exact hOther rfl

/-- In JSON an identifier stands as its bare digits. -/
theorem compact_toJson (id : Ident kind) : id.toJson.compact = "\"" ++ id.uuid.text ++ "\"" := by
  have hPlain : id.uuid.chars.flatMap Json.escape = id.uuid.chars := by
    rw [List.flatMap_congr fun c => Uuid.escape_of_mem_chars, List.flatMap_singleton']
  have hText : id.uuid.text.toList = id.uuid.chars := String.toList_ofList
  rw [← String.toList_inj, toJson, Json.compact, Json.chars, Json.quote, hText, hPlain]
  simp [hText]

/-- What is read from the JSON form of a text are the forms of digits without the word for the
kind. -/
theorem read_string_eq_ok_iff {text : String} :
    Json.read (reader kind) (Json.string text).compact = .ok id ↔
      ∃ digits, digits.map Char.toLower = id.uuid.digits ∧ Uuid.Spells digits text.toList := by
  have hWhole :
      Json.read (reader kind) (Json.string text).compact = reader kind (.string text) := by
    rw [Json.read, Json.ofText_compact (.string text)]
    change (reader kind (.string text)).bind .ok = _
    cases reader kind (.string text) <;> rfl
  obtain ⟨u⟩ := id
  rw [hWhole, ← Uuid.ofChars?_eq_some_iff]
  change _ ↔ Uuid.ofText? text = some u
  cases hRead : Uuid.ofText? text with
  | none => simp [reader, Json.Reader.string, bind, Except.bind, hRead]
  | some v =>
      have hReader : reader kind (.string text) = .ok ⟨v⟩ := by
        simp only [reader, Json.Reader.string, bind, Except.bind, hRead]
        rfl
      simp [hReader]

/-- What the texts of identifiers of a kind tell. -/
structure Told (kind : Kind) : Prop where
  /-- The text of an identifier is read back, -/
  reads_text : ∀ id : Ident kind, ofText? kind id.text = some id
  /-- and so it is without the word for the kind. -/
  reads_bare : ∀ id : Ident kind, ofText? kind id.uuid.text = some id
  /-- The forms of 32 digits are read, with the word in front or without it, and nothing else, -/
  accepts_iff : ∀ text, (∃ id, ofText? kind text = some id) ↔
    ∃ digits, Uuid.IsDigits digits ∧ Spells kind digits text.toList
  /-- and all forms of the same digits, in whichever case, are read as the same identifier. -/
  goes_by_digits : ∀ first second digits digits',
    Uuid.IsDigits digits → digits.map Char.toLower = digits'.map Char.toLower →
    Spells kind digits first.toList → Spells kind digits' second.toList →
    ∃ id, ofText? kind first = some id ∧ ofText? kind second = some id
  /-- Different identifiers have different texts, -/
  differs : Function.Injective (text : Ident kind → String)
  /-- and the text of one is not read as an identifier of another kind. -/
  other_kind : ∀ other ≠ kind, ∀ id : Ident kind, ofText? other id.text = none
  /-- The JSON form is the digits in groups, without the word, -/
  json_text : ∀ id : Ident kind, id.toJson.compact = "\"" ++ id.uuid.text ++ "\""
  /-- which is read back, -/
  json_reads : ∀ id : Ident kind, Json.read (reader kind) id.toJson.compact = .ok id
  /-- while the text with the word in front is an error there. -/
  json_rejects : ∀ id : Ident kind, ∃ fault,
    Json.read (reader kind) (Json.string id.text).compact = .error fault

/-- Identifiers and their texts: each is read back from its text, the forms of digits are all that
is read, and neither kind is taken for the other. -/
theorem texts_tell_identifiers (kind : Kind) : Told kind where
  reads_text id := ofText?_eq_some_iff.mpr ⟨_, id.uuid.map_toLower_digits, id.spells_text⟩
  reads_bare id := ofText?_eq_some_iff.mpr ⟨_, id.uuid.map_toLower_digits, id.spells_uuid_text⟩
  accepts_iff text := by
    constructor
    · rintro ⟨id, hRead⟩
      obtain ⟨digits, hLower, spells⟩ := ofText?_eq_some_iff.mp hRead
      exact ⟨digits, Uuid.isDigits_iff.mpr ⟨_, hLower⟩, spells⟩
    · rintro ⟨digits, hDigits, spells⟩
      obtain ⟨u, hLower⟩ := Uuid.isDigits_iff.mp hDigits
      exact ⟨⟨u⟩, ofText?_eq_some_iff.mpr ⟨digits, hLower, spells⟩⟩
  goes_by_digits first second digits digits' hDigits hSame hFirst hSecond := by
    obtain ⟨u, hLower⟩ := Uuid.isDigits_iff.mp hDigits
    refine ⟨⟨u⟩, ofText?_eq_some_iff.mpr ⟨digits, hLower, hFirst⟩, ?_⟩
    exact ofText?_eq_some_iff.mpr ⟨digits', hSame ▸ hLower, hSecond⟩
  differs := text_injective
  other_kind _ hOther id := id.ofText?_text_of_ne hOther
  json_text id := id.compact_toJson
  json_reads _ := (restores kind).read_compact trivial
  json_rejects id := by
    cases hRead : Json.read (reader kind) (Json.string id.text).compact with
    | error fault => exact ⟨fault, rfl⟩
    | ok read =>
        obtain ⟨digits, hLower, spells⟩ := read_string_eq_ok_iff.mp hRead
        rw [text, String.toList_ofList] at spells
        exact absurd spells (not_spells_labelled (Uuid.isDigits_iff.mpr ⟨_, hLower⟩))

/-- The same 32 digits in either case, and the identifier that they write. -/
def sampleDigits : List Char := "67e5504410b1426f9247bb680e5fe0c8".toList

def sampleUpper : List Char := "67E5504410B1426F9247BB680E5FE0C8".toList

def sampleId (kind : Kind) : Ident kind := ⟨.ofNat 0x67e5504410b1426f9247bb680e5fe0c8⟩

theorem sample_forms_read :
    (∃ id : Ident .run,
      ofText? .run "run_\x7b67e55044-10b1-426f-9247-bb680e5fe0c8\x7d" = some id ∧
      ofText? .run "Urn:Uuid:67E55044-10B1-426F-9247-BB680E5FE0C8" = some id) ∧
    ofText? .run (sampleId .job).text = none := by
  have hDigits : Uuid.IsDigits sampleDigits := by decide
  have hSame : sampleDigits.map Char.toLower = sampleUpper.map Char.toLower := by decide
  have hSpace : "Urn:Uuid:".toList.map Char.toLower = "urn:uuid:".toList := by decide
  constructor
  · exact (texts_tell_identifiers .run).goes_by_digits _ _ sampleDigits sampleUpper hDigits hSame
      (.labelled .braced) (.bare (.urn hSpace))
  · exact (texts_tell_identifiers .job).other_kind .run (by decide) (sampleId .job)

end Ident

end ChangeGate

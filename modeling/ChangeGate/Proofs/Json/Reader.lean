import ChangeGate.Json.Reader
import ChangeGate.Proofs.Except
import ChangeGate.Proofs.Json.RoundTrip
import ChangeGate.Proofs.Table

/-! Readers and the forms that they read back. A reader restores a form if it gives back every value
in range from its form, and whatever it reads, from a form or not, is in range. So what is read from
any text can be written, and is read again from what is written. A record is restored if each of its
fields is. -/

namespace ChangeGate.Json

/-- A reader gives back the values in range from their form, which is read from its own text, and
all that it reads is in range. -/
structure Restores {α : Type} (reader : Reader α) (form : α → Json) (InRange : α → Prop) :
    Prop where
  whole : ∀ a, InRange a → Whole (form a)
  reads : ∀ a, InRange a → reader (.ofJson (form a)) = .ok a
  inRange : ∀ d a, reader d = .ok a → InRange a

section

variable {α : Type} {reader : Reader α} {form : α → Json} {InRange : α → Prop} {a : α}

theorem Restores.of
    (hReads : ∀ a, InRange a → Whole (form a) ∧ reader (.ofJson (form a)) = .ok a)
    (hInRange : ∀ d a, reader d = .ok a → InRange a) : Restores reader form InRange :=
  ⟨fun a h => (hReads a h).1, fun a h => (hReads a h).2, hInRange⟩

/-- A value in range is read back from the text of its form. -/
theorem Restores.read_compact (restores : Restores reader form InRange) (h : InRange a) :
    read reader (form a).compact = .ok a := by
  rw [read, ofText_compact (restores.whole a h)]
  change (reader (.ofJson (form a))).bind _ = _
  rw [restores.reads a h]
  rfl

theorem Restores.inRange_of_read (restores : Restores reader form InRange) {text : String}
    (h : read reader text = .ok a) : InRange a := by
  obtain ⟨b, hRead, h⟩ := ok_of_bind h
  split at h
  · cases h
    exact restores.inRange _ _ hRead
  · cases h

/-- What is written for a value that was read, from whatever text, is final: the value read from it
is written as the same text. -/
theorem Restores.rewrite_compact (restores : Restores reader form InRange) {text : String}
    (h : read reader text = .ok a) :
    (read reader (form a).compact).map (fun b => (form b).compact) = .ok (form a).compact := by
  rw [restores.read_compact (restores.inRange_of_read h)]
  rfl

end

namespace Reader

variable {α : Type} {reader : Reader α} {form : α → Json} {InRange : α → Prop}

theorem not_ok_of_mismatch {expected : String} {d : Draft} {a : α} :
    mismatch expected d ≠ .ok a := by
  unfold mismatch
  split <;> nofun

theorem restores_string (expected : String) :
    Restores (string expected) .string fun _ => True where
  whole s _ := .string s
  reads _ _ := rfl
  inRange _ _ _ := trivial

theorem restores_bool : Restores bool .bool fun _ => True where
  whole b _ := .bool b
  reads _ _ := rfl
  inRange _ _ _ := trivial

theorem restores_integer {low high : Int} {expected : String} (hLow : -(Bits.values 63 : Int) ≤ low)
    (hHigh : high ≤ (Number.maxWord : Int)) :
    Restores (integer low high expected) .int fun i => low ≤ i ∧ i ≤ high where
  whole i h := .number ⟨Int.le_trans hLow h.1, Int.le_trans h.2 hHigh⟩
  reads i h := if_pos h
  inRange d i h := by
    unfold integer at h
    split at h
    · split at h
      · next hWithin =>
          cases h
          exact hWithin
      · cases h
    · exact absurd h not_ok_of_mismatch

theorem restores_natural {high : Nat} (expected : String) (hHigh : high ≤ Number.maxWord) :
    Restores (fun d => (integer 0 high expected d).map Int.toNat) .nat (· ≤ high) := by
  have hInteger : Restores (integer 0 high expected) .int fun i => 0 ≤ i ∧ i ≤ (high : Int) :=
    restores_integer (by omega) (by omega)
  have hWithin : ∀ {n : Nat}, n ≤ high → 0 ≤ (n : Int) ∧ (n : Int) ≤ (high : Int) := by omega
  constructor
  · exact fun n h => hInteger.whole n (hWithin h)
  · intro n h
    have hRead : integer 0 high expected (.ofJson (.nat n)) = .ok (n : Int) :=
      hInteger.reads n (hWithin h)
    rw [hRead]
    rfl
  · intro d n h
    cases hRead : integer 0 high expected d with
    | error e => rw [hRead] at h; cases h
    | ok i =>
        rw [hRead] at h
        cases h
        have hBounds := hInteger.inRange d i hRead
        omega

theorem coe_maxWord : (Bits.values 64 : Int) - 1 = (Number.maxWord : Nat) := by decide +kernel

theorem restores_size : Restores size .nat (· ≤ Number.maxWord) := by
  have hNatural := restores_natural "usize" (Nat.le_refl Number.maxWord)
  rw [← coe_maxWord] at hNatural
  exact hNatural

theorem restores_count : Restores count .nat (· ≤ Number.maxWord) := by
  have hNatural := restores_natural "u64" (Nat.le_refl Number.maxWord)
  rw [← coe_maxWord] at hNatural
  exact hNatural

/-- Whether a number fits 32 bits with a sign. -/
def FitsInt32 (i : Int) : Prop := -(Bits.values 31 : Int) ≤ i ∧ i ≤ (Bits.values 31 : Int) - 1

instance (i : Int) : Decidable (FitsInt32 i) := inferInstanceAs (Decidable (_ ∧ _))

theorem restores_int32 : Restores int32 .int FitsInt32 :=
  restores_integer (by decide +kernel) (by decide +kernel)

theorem restores_option (restores : Restores reader form InRange) (hSome : ∀ a, form a ≠ .null) :
    Restores (option reader) (.ofOption form) fun o => ∀ a, o = some a → InRange a where
  whole o h := by
    cases o with
    | none => exact .null
    | some a => exact restores.whole a (h a rfl)
  reads o h := by
    cases o with
    | none => rfl
    | some a =>
        have hRead := restores.reads a (h a rfl)
        have hDraft : Draft.ofJson (form a) ≠ .null := by
          have hForm := hSome a
          cases hJson : form a with
          | null => exact absurd hJson hForm
          | _ => nofun
        change option reader (.ofJson (form a)) = _
        unfold option
        split
        · next hNull => exact absurd hNull hDraft
        · rw [hRead]
          rfl
  inRange d o h := by
    rintro a rfl
    unfold option at h
    split at h
    · cases h
    · cases hRead : reader d with
      | error e => rw [hRead] at h; cases h
      | ok b =>
          rw [hRead] at h
          cases h
          exact restores.inRange d a hRead

theorem restores_optionalInt32 : Restores (option int32) (.ofOption .int)
    fun o => ∀ i, o = some i → FitsInt32 i :=
  restores_option restores_int32 nofun

theorem restores_optionalCount : Restores (option count) (.ofOption .nat)
    fun o => ∀ n, o = some n → n ≤ Number.maxWord :=
  restores_option restores_count nofun

theorem items_ofItems (restores : Restores reader form InRange) {as : List α}
    (h : ∀ a ∈ as, InRange a) : items reader (Draft.ofItems (as.map form)) = .ok as := by
  induction as with
  | nil => rfl
  | cons a as ih =>
      obtain ⟨hFirst, hRest⟩ := List.forall_mem_cons.mp h
      change (reader (.ofJson (form a))).bind _ = _
      rw [restores.reads a hFirst]
      change (items reader (Draft.ofItems (as.map form))).bind _ = _
      rw [ih hRest]
      rfl

theorem inRange_of_items (restores : Restores reader form InRange) {ds : List Draft} {as : List α}
    (h : items reader ds = .ok as) : ∀ a ∈ as, InRange a := by
  induction ds generalizing as with
  | nil => cases h; exact nofun
  | cons d ds ih =>
      obtain ⟨a, hFirst, h⟩ := ok_of_bind h
      obtain ⟨rest, hRest, h⟩ := ok_of_bind h
      cases h
      exact List.forall_mem_cons.mpr ⟨restores.inRange d a hFirst, ih hRest⟩

theorem restores_list (restores : Restores reader form InRange) :
    Restores (list reader) (fun as => .array (as.map form)) fun as => ∀ a ∈ as, InRange a where
  whole as h := by
    refine .array fun v hMem => ?_
    obtain ⟨a, hOwn, rfl⟩ := List.mem_map.mp hMem
    exact restores.whole a (h a hOwn)
  reads as h := by
    change (items reader (Draft.ofItems (as.map form))).bind _ = _
    rw [items_ofItems restores h]
    rfl
  inRange d as h := by
    unfold list at h
    split at h
    · obtain ⟨bs, hItems, h⟩ := ok_of_bind h
      split at h
      · cases h
        exact inRange_of_items restores hItems
      · cases h
    · exact absurd h not_ok_of_mismatch

theorem members_ofMembers (expected : String) (entries : List (String × String)) :
    members (string expected) (Draft.ofMembers (entries.map fun e => (e.1, .string e.2))) =
      .ok entries := by
  induction entries with
  | nil => rfl
  | cons e entries ih =>
      change (members (string expected) (Draft.ofMembers _)).bind _ = _
      rw [ih]
      rfl

theorem restores_texts (expected : String) : Restores (table (string expected))
    (fun t => .object (t.entries.map fun e => (e.1, .string e.2))) fun _ => True where
  whole t _ := by
    refine .object fun m hMem => ?_
    obtain ⟨e, -, rfl⟩ := List.mem_map.mp hMem
    exact .string _
  reads t _ := by
    change (members (string expected) (Draft.ofMembers _)).bind _ = _
    rw [members_ofMembers]
    change Except.ok (Table.ofList t.entries) = _
    rw [t.ofList_entries]
  inRange _ _ _ := trivial

theorem restores_enumeration {known : List (String × α)} {source : Source} {name : α → String}
    (hKnown : ∀ a, known.lookup (name a) = some a) :
    Restores (enumeration known source) (fun a => .string (name a)) fun _ => True where
  whole a _ := .string _
  reads a _ := by
    change variant known (name a) = _
    rw [variant, hKnown]
  inRange _ _ _ := trivial

/-- A value that must be there, kept like one that may be absent. -/
theorem restores_present (restores : Restores reader form InRange) :
    Restores (fun d => (reader d).map some) (.ofOption form)
      fun o => ∃ a, o = some a ∧ InRange a where
  whole o h := by
    obtain ⟨a, rfl, hIn⟩ := h
    exact restores.whole a hIn
  reads o h := by
    obtain ⟨a, rfl, hIn⟩ := h
    change (reader (.ofJson (form a))).map some = _
    rw [restores.reads a hIn]
    rfl
  inRange d o h := by
    cases hRead : reader d with
    | error e => rw [hRead] at h; cases h
    | ok a =>
        rw [hRead] at h
        cases h
        exact ⟨a, rfl, restores.inRange d a hRead⟩

section Record

variable {P : Type} {fields : List (Field P)} {start p q r : P} {Q : P → Prop} {a : α}
  {members : List (String × Json)} {name expected : String} {source : Source}
  {finish : P → Except ReadError α}

/-- Members that fill the fields of a record one after another: each belongs to a field that has not
been seen, and the field is read from it. -/
inductive Filled (fields : List (Field P)) : P → List (String × Json) → P → Prop where
  | nil (p : P) : Filled fields p [] p
  | cons {p q r : P} {name : String} {v : Json} {members : List (String × Json)} {field : Field P}
      (hFind : fields.find? (·.name == name) = some field) (hSeen : field.seen p = false)
      (hWhole : Whole v) (hRead : field.read (.ofJson v) p = .ok q)
      (rest : Filled fields q members r) : Filled fields p ((name, v) :: members) r

/-- A member fills a field with the value of which it is the form. -/
theorem Filled.field {β : Type} {reader : Reader β} {form : β → Json} {InRange : β → Prop} {b : β}
    {get : P → Option β} {set : β → P → P} (restores : Restores reader form InRange)
    (h : InRange b) (hFind : fields.find? (·.name == name) = some (.of name get reader set))
    (hSeen : get p = none) (rest : Filled fields (set b p) members r) :
    Filled fields p ((name, form b) :: members) r := by
  refine .cons hFind ?_ (restores.whole b h) ?_ rest
  · simp [Field.of, hSeen]
  · change (reader (.ofJson (form b))).map _ = _
    rw [restores.reads b h]
    rfl

theorem Filled.whole (filled : Filled fields p members r) : ∀ m ∈ members, Whole m.2 := by
  induction filled with
  | nil => exact nofun
  | cons _ _ hWhole _ _ ih => exact List.forall_mem_cons.mpr ⟨hWhole, ih⟩

theorem Filled.recordMembers_eq (filled : Filled fields p members r) :
    recordMembers fields p (Draft.ofMembers members) = .ok r := by
  induction filled with
  | nil => rfl
  | cons hFind hSeen _ hRead _ ih =>
      rw [Draft.ofMembers, recordMembers, hFind]
      dsimp only
      rw [hSeen, if_neg Bool.false_ne_true, hRead]
      exact ih

/-- A record is read from members that fill its fields. -/
theorem record_of_filled (filled : Filled fields start members r) (hFinish : finish r = .ok a) :
    Whole (.object members) ∧
      record expected fields start finish source (.ofJson (.object members)) = .ok a := by
  refine ⟨.object filled.whole, ?_⟩
  change (recordMembers fields start (Draft.ofMembers members)).bind _ = _
  rw [filled.recordMembers_eq]
  exact hFinish

/-- A field of a record keeps a property of what has been read of it. -/
def Field.Keeps (field : Field P) (Q : P → Prop) : Prop :=
  ∀ d p q, Q p → field.read d p = .ok q → Q q

theorem Field.keeps_of {β : Type} {reader : Reader β} {InRange : β → Prop} {get : P → Option β}
    {set : β → P → P} (hReader : ∀ d b, reader d = .ok b → InRange b)
    (hSet : ∀ b p, InRange b → Q p → Q (set b p)) : (Field.of name get reader set).Keeps Q := by
  intro d p q hHolds h
  cases hRead : reader d with
  | error e =>
      change (reader d).map _ = _ at h
      rw [hRead] at h
      cases h
  | ok b =>
      change (reader d).map _ = _ at h
      rw [hRead] at h
      cases h
      exact hSet b p (hReader d b hRead) hHolds

theorem Field.keeps_of_unread {β : Type} {reader : Reader β} {get : P → Option β}
    {set : β → P → P} (hSet : ∀ b p, Q p → Q (set b p)) :
    (Field.of name get reader set).Keeps Q := by
  have hAny : ∀ d b, reader d = .ok b → True := fun _ _ _ => trivial
  exact Field.keeps_of hAny fun b p _ => hSet b p

theorem holds_of_recordMembers (hFields : ∀ field ∈ fields, field.Keeps Q)
    {ms : List (String × Draft)} (hStart : Q p) (h : recordMembers fields p ms = .ok r) : Q r := by
  induction ms generalizing p with
  | nil => cases h; exact hStart
  | cons m ms ih =>
      rw [recordMembers] at h
      split at h
      · obtain ⟨-, -, h⟩ := ok_of_bind h
        exact ih hStart h
      · next field hFind =>
          split at h
          · cases h
          · obtain ⟨q, hRead, h⟩ := ok_of_bind h
            exact ih (hFields field (List.mem_of_find?_eq_some hFind) _ _ _ hStart hRead) h

theorem holds_of_recordItems {rest : List (Field P)} (hFields : ∀ field ∈ rest, field.Keeps Q)
    {ds left : List Draft} {index : Nat} {closed : Bool} (hStart : Q p)
    (h : recordItems expected index p rest ds closed = .ok (r, left)) : Q r := by
  induction rest generalizing ds index p with
  | nil => cases h; exact hStart
  | cons field rest ih =>
      obtain ⟨hFirst, hMore⟩ := List.forall_mem_cons.mp hFields
      cases ds with
      | nil =>
          rw [recordItems] at h
          split at h <;> cases h
      | cons d ds =>
          obtain ⟨q, hRead, h⟩ := ok_of_bind h
          exact ih hMore (hFirst _ _ _ hStart hRead) h

/-- Whatever a record is read from, it is in range if its parts have a property at the start, which
every field keeps, and which the finished record takes from them. -/
theorem inRange_of_record (hFields : ∀ field ∈ fields, field.Keeps Q) (hStart : Q start)
    (hFinish : ∀ p a, Q p → finish p = .ok a → InRange a) :
    ∀ d a, record expected fields start finish source d = .ok a → InRange a := by
  intro d a h
  unfold record at h
  split at h
  · obtain ⟨p, hMembers, h⟩ := ok_of_bind h
    split at h
    · exact hFinish p a (holds_of_recordMembers hFields hStart hMembers) h
    · cases h
  · obtain ⟨⟨p, left⟩, hItems, h⟩ := ok_of_bind h
    obtain ⟨b, hDone, h⟩ := ok_of_bind h
    have hIn := hFinish p b (holds_of_recordItems hFields hStart hItems) hDone
    split at h
    · cases h
      exact hIn
    · split at h <;> cases h
  · exact absurd h not_ok_of_mismatch

/-- A property of a value that has been read, stated of the part that it has become. -/
theorem of_some (h : InRange a) : ∀ b, some a = some b → InRange b := by
  rintro _ ⟨⟩
  exact h

theorem ok_of_required {β : Type} {o : Option α} {f : α → Except ReadError β} {b : β}
    (h : (required name o).bind f = .ok b) : ∃ a, o = some a ∧ f a = .ok b := by
  cases o with
  | none => cases h
  | some a => exact ⟨a, rfl, h⟩

end Record

section Tagged

variable {κ : Type} {known : List (String × κ)} {kind : κ} {members : List (String × Json)}
  {expected tag name : String} {source : Source} {depth : Nat} {contents : κ → Reader α} {a : α}

theorem taggedMembers_of_others (done : List (String × Draft))
    (hNames : ∀ m ∈ members, m.1 ≠ tag) (hDepth : ∀ m ∈ members, m.2.depth < depth) :
    taggedMembers tag known source depth (some kind) done (Draft.ofMembers members) =
      .ok (some kind, done.reverse ++ Draft.ofMembers members) := by
  induction members generalizing done with
  | nil => rw [Draft.ofMembers, taggedMembers, List.append_nil]
  | cons m members ih =>
      obtain ⟨hName, hNames⟩ := List.forall_mem_cons.mp hNames
      obtain ⟨hFirst, hDepth⟩ := List.forall_mem_cons.mp hDepth
      have hHold : hold depth (.ofJson m.2) = .ok (.ofJson m.2) := by
        rw [hold, Draft.toJson?_ofJson m.2 hFirst]
      rw [Draft.ofMembers, taggedMembers, if_neg hName, hHold]
      change taggedMembers _ _ _ _ _ _ _ = _
      rw [ih _ hNames hDepth, List.reverse_cons, List.append_assoc, List.singleton_append]

/-- A value whose kind is told by its first member is read as the kind tells from the others. -/
theorem tagged_of_first (hKind : known.lookup name = some kind)
    (hNames : ∀ m ∈ members, m.1 ≠ tag) (hDepth : ∀ m ∈ members, m.2.depth < depth)
    (h : Whole (.object members) ∧ contents kind (.ofJson (.object members)) = .ok a) :
    Whole (.object ((tag, .string name) :: members)) ∧
      (tagged expected tag known source depth
        (.ofJson (.object ((tag, .string name) :: members))) >>=
          fun t => contents t.kind t.rest) = .ok a := by
  obtain ⟨hWhole, hRead⟩ := h
  have hMembers : ∀ m ∈ members, Whole m.2 := by
    cases hWhole with
    | object hMembers => exact hMembers
  refine ⟨.object (List.forall_mem_cons.mpr ⟨.string _, hMembers⟩), ?_⟩
  have hTagged : taggedMembers tag known source depth none []
      (Draft.ofMembers ((tag, .string name) :: members)) =
      .ok (some kind, Draft.ofMembers members) := by
    rw [Draft.ofMembers, taggedMembers, if_pos rfl]
    change (variant known name).bind _ = _
    rw [variant, hKind]
    exact taggedMembers_of_others [] hNames hDepth
  change (tagged expected tag known source depth (.object _ true)).bind _ = _
  rw [tagged, hTagged]
  exact hRead

end Tagged

end Reader

end ChangeGate.Json

import ChangeGate.Proofs.Json.Token
import ChangeGate.Json.Draft

/-! A value is read back from its compact text: the text is made of the tokens of the value, and
the tokens are built up to it again. -/

namespace ChangeGate.Json

open Token Number

/-- Induction over a value and all that is in it. -/
@[elab_as_elim]
theorem induct {P : Json → Prop} (null : P .null) (bool : ∀ b, P (.bool b))
    (number : ∀ n, P (.number n)) (string : ∀ s, P (.string s))
    (array : ∀ items, (∀ v ∈ items, P v) → P (.array items))
    (object : ∀ members, (∀ m ∈ members, P m.2) → P (.object members)) (v : Json) : P v :=
  @Json.rec P (fun items => ∀ v ∈ items, P v) (fun members => ∀ m ∈ members, P m.2)
    (fun m => P m.2) null bool number string array object nofun
    (fun _ _ first rest => List.forall_mem_cons.mpr ⟨first, rest⟩) nofun
    (fun _ _ first rest => List.forall_mem_cons.mpr ⟨first, rest⟩) (fun _ _ value => value) v

/-- The numbers of a value are whole and fit 64 bits. -/
inductive Whole : Json → Prop where
  | null : Whole .null
  | bool (b : Bool) : Whole (.bool b)
  | number {i : Int} (hFits : Fits i) : Whole (.number (.int i))
  | string (s : String) : Whole (.string s)
  | array {items : List Json} (hItems : ∀ v ∈ items, Whole v) : Whole (.array items)
  | object {members : List (String × Json)} (hMembers : ∀ m ∈ members, Whole m.2) :
      Whole (.object members)

/-- The members of every object in a value are in the order of their names, each name once. -/
inductive Ordered : Json → Prop where
  | null : Ordered .null
  | bool (b : Bool) : Ordered (.bool b)
  | number (n : Number) : Ordered (.number n)
  | string (s : String) : Ordered (.string s)
  | array {items : List Json} (hItems : ∀ v ∈ items, Ordered v) : Ordered (.array items)
  | object {members : List (String × Json)} (hNames : members.Pairwise fun m m' => m.1 < m'.1)
      (hMembers : ∀ m ∈ members, Ordered m.2) : Ordered (.object members)

mutual

/-- The tokens of a value. -/
def tokens : Json → List Token
  | .null => [.null]
  | .bool b => [.bool b]
  | .number n => [.number n]
  | .string s => [.string s]
  | .array items => .openArray :: tokensItems items
  | .object members => .openObject :: tokensMembers members

/-- The tokens of the items and of the end of their array. -/
def tokensItems : List Json → List Token
  | [] => [.closeArray]
  | [v] => tokens v ++ [.closeArray]
  | v :: rest => tokens v ++ .comma :: tokensItems rest

/-- The tokens of the members and of the end of their object. -/
def tokensMembers : List (String × Json) → List Token
  | [] => [.closeObject]
  | [(k, v)] => .string k :: .colon :: (tokens v ++ [.closeObject])
  | (k, v) :: rest => .string k :: .colon :: (tokens v ++ .comma :: tokensMembers rest)

end

theorem scans_items {items : List Json} {rest : List Char}
    (hItems : ∀ v ∈ items, ∀ rest, Stops rest → Scans (chars v) (tokens v) rest) :
    Scans (charsItems items) (tokensItems items) rest := by
  induction items with
  | nil => exact scans_of_next rfl nofun rfl
  | cons v items ih =>
      obtain ⟨hFirst, hMore⟩ := List.forall_mem_cons.mp hItems
      cases items with
      | nil =>
          have hEnd : Scans [']'] [.closeArray] rest := scans_of_next rfl nofun rfl
          exact (hFirst _ (stops_cons (by decide))).append hEnd
      | cons w items =>
          have hComma : Scans [','] [.comma] (charsItems (w :: items) ++ rest) :=
            scans_of_next rfl nofun rfl
          exact (hFirst _ (stops_cons (by decide))).append (hComma.append (ih hMore))

theorem scans_members {members : List (String × Json)} {rest : List Char}
    (hMembers : ∀ m ∈ members, ∀ rest, Stops rest → Scans (chars m.2) (tokens m.2) rest) :
    Scans (charsMembers members) (tokensMembers members) rest := by
  induction members with
  | nil => exact scans_of_next rfl nofun rfl
  | cons m members ih =>
      obtain ⟨k, v⟩ := m
      obtain ⟨hFirst, hMore⟩ := List.forall_mem_cons.mp hMembers
      have hColon : ∀ rest, Scans [':'] [.colon] rest := fun _ => scans_of_next rfl nofun rfl
      cases members with
      | nil =>
          have hEnd : Scans ['}'] [.closeObject] rest := scans_of_next rfl nofun rfl
          exact (scans_quote k _).append ((hColon _).append
            ((hFirst _ (stops_cons (by decide))).append hEnd))
      | cons m' members =>
          have hComma : Scans [','] [.comma] (charsMembers (m' :: members) ++ rest) :=
            scans_of_next rfl nofun rfl
          exact (scans_quote k _).append ((hColon _).append
            ((hFirst _ (stops_cons (by decide))).append (hComma.append (ih hMore))))

/-- The text of a value is scanned as the tokens of the value. -/
theorem Whole.scans {v : Json} (whole : Whole v) :
    ∀ rest, Stops rest → Scans (chars v) (tokens v) rest := by
  induction whole with
  | null => exact fun _ _ => scans_of_next rfl nofun rfl
  | bool b => cases b <;> exact fun _ _ => scans_of_next rfl nofun rfl
  | number hFits => exact fun _ hRest => scans_number hFits hRest
  | string s => exact fun _ _ => scans_quote s _
  | @array items _ ih =>
      intro rest _
      have hOpen : Scans ['['] [.openArray] (charsItems items ++ rest) :=
        scans_of_next rfl nofun rfl
      exact hOpen.append (scans_items ih)
  | @object members _ ih =>
      intro rest _
      have hOpen : Scans ['{'] [.openObject] (charsMembers members ++ rest) :=
        scans_of_next rfl nofun rfl
      exact hOpen.append (scans_members ih)

namespace Draft

variable {frames : List Frame} {rest : List Token}

/-- The first item of an array is built like any other one. -/
theorem build_firstItem (v : Json) :
    build .firstItem frames (tokens v ++ rest) =
      build .value (.items [] :: frames) (tokens v ++ rest) := by
  cases v <;> rfl

theorem build_items {items : List Json} {done : List Draft} (hNonempty : items ≠ [])
    (hItems : ∀ v ∈ items, ∀ frames rest,
      build .value frames (tokens v ++ rest) = build (.after (.ofJson v)) frames rest) :
    build .value (.items done :: frames) (tokensItems items ++ rest) =
      build (.after (.array (done.reverse ++ ofItems items) true)) frames rest := by
  induction items generalizing done with
  | nil => exact absurd rfl hNonempty
  | cons v items ih =>
      obtain ⟨hFirst, hMore⟩ := List.forall_mem_cons.mp hItems
      cases items with
      | nil =>
          rw [tokensItems, List.append_assoc, hFirst]
          rfl
      | cons w items =>
          have hNext := @ih (.ofJson v :: done) (List.cons_ne_nil _ _) hMore
          rw [List.reverse_cons, List.append_assoc, List.singleton_append] at hNext
          rw [tokensItems, List.append_assoc, hFirst]
          · exact hNext
          · exact nofun

theorem build_members {members : List (String × Json)} {done : List (String × Draft)} {orEnd : Bool}
    (hNonempty : members ≠ []) (hMembers : ∀ m ∈ members, ∀ frames rest,
      build .value frames (tokens m.2 ++ rest) = build (.after (.ofJson m.2)) frames rest) :
    build (.name done orEnd) frames (tokensMembers members ++ rest) =
      build (.after (.object (done.reverse ++ ofMembers members) true)) frames rest := by
  induction members generalizing done orEnd with
  | nil => exact absurd rfl hNonempty
  | cons m members ih =>
      obtain ⟨k, v⟩ := m
      obtain ⟨hFirst, hMore⟩ := List.forall_mem_cons.mp hMembers
      have hName : ∀ rest', build (.name done orEnd) frames
          (.string k :: .colon :: (tokens v ++ rest')) =
            build (.after (.ofJson v)) (.members done k :: frames) rest' :=
        fun rest' => hFirst (.members done k :: frames) rest'
      cases members with
      | nil =>
          rw [tokensMembers, List.cons_append, List.cons_append, List.append_assoc, hName]
          rfl
      | cons m members =>
          have hNext := @ih ((k, .ofJson v) :: done) false (List.cons_ne_nil _ _) hMore
          rw [List.reverse_cons, List.append_assoc, List.singleton_append] at hNext
          rw [tokensMembers, List.cons_append, List.cons_append, List.append_assoc, hName]
          · exact hNext
          · exact nofun

/-- The tokens of a value are built up to it, in whatever it stands. -/
theorem build_tokens (v : Json) (frames : List Frame) (rest : List Token) :
    build .value frames (tokens v ++ rest) = build (.after (.ofJson v)) frames rest := by
  induction v using Json.induct generalizing frames rest with
  | null => rfl
  | bool b => rfl
  | number n => rfl
  | string s => rfl
  | array items ih =>
      cases items with
      | nil => rfl
      | cons v items =>
          obtain ⟨more, hTokens⟩ : ∃ more, tokensItems (v :: items) = tokens v ++ more := by
            cases items <;> exact ⟨_, rfl⟩
          calc
            build .value frames (tokens (.array (v :: items)) ++ rest)
              = build .firstItem frames (tokensItems (v :: items) ++ rest) := rfl
            _ = build .value (.items [] :: frames) (tokensItems (v :: items) ++ rest) := by
              rw [hTokens, List.append_assoc, build_firstItem]
            _ = build (.after (.ofJson (.array (v :: items)))) frames rest :=
              build_items (List.cons_ne_nil _ _) ih
  | object members ih =>
      cases members with
      | nil => rfl
      | cons m members => exact build_members (List.cons_ne_nil _ _) ih

end Draft

/-- A value is read from its compact text, and nothing is left of the text. -/
theorem ofText_compact {v : Json} (whole : Whole v) :
    Draft.ofText v.compact = (.ofJson v, true) := by
  have hBuild := Draft.build_tokens v [] []
  rw [List.append_nil] at hBuild
  rw [Draft.ofText, compact, String.toList_ofList, (whole.scans [] stops_nil).eq, hBuild]
  rfl

namespace Draft

theorem depth_le_of_mem {items : List Json} {v : Json} (h : v ∈ items) :
    v.depth ≤ depthItems items := by
  induction h with
  | head => exact Nat.le_max_left _ _
  | tail w _ ih => exact Nat.le_trans ih (Nat.le_max_right _ _)

theorem depth_le_of_member {members : List (String × Json)} {m : String × Json} (h : m ∈ members) :
    m.2.depth ≤ depthMembers members := by
  induction h with
  | head => exact Nat.le_max_left _ _
  | tail w _ ih => exact Nat.le_trans ih (Nat.le_max_right _ _)

/-- Some item of a list is nested as deep as the list, unless none is nested at all. -/
theorem exists_mem_depth {items : List Json} (h : depthItems items ≠ 0) :
    ∃ v ∈ items, v.depth = depthItems items := by
  induction items with
  | nil => exact absurd rfl h
  | cons v rest ih =>
      rw [depthItems] at h ⊢
      rcases Nat.le_total (depthItems rest) v.depth with hFirst | hRest
      · exact ⟨v, List.mem_cons_self, (Nat.max_eq_left hFirst).symm⟩
      · rw [Nat.max_eq_right hRest] at h ⊢
        obtain ⟨w, hMem, hDepth⟩ := ih h
        exact ⟨w, List.mem_cons_of_mem _ hMem, hDepth⟩

theorem exists_member_depth {members : List (String × Json)} (h : depthMembers members ≠ 0) :
    ∃ m ∈ members, m.2.depth = depthMembers members := by
  induction members with
  | nil => exact absurd rfl h
  | cons m rest ih =>
      rw [depthMembers] at h ⊢
      rcases Nat.le_total (depthMembers rest) m.2.depth with hFirst | hRest
      · exact ⟨m, List.mem_cons_self, (Nat.max_eq_left hFirst).symm⟩
      · rw [Nat.max_eq_right hRest] at h ⊢
        obtain ⟨w, hMem, hDepth⟩ := ih h
        exact ⟨w, List.mem_cons_of_mem _ hMem, hDepth⟩

theorem itemsToJson?_eq_none {depth : Nat} {items : List Json} {v : Json} (hMem : v ∈ items)
    (hNone : toJson? depth (ofJson v) = none) : itemsToJson? depth (ofItems items) = none := by
  induction hMem with
  | head rest => simp [ofItems, itemsToJson?, hNone]
  | tail w _ ih => cases h : toJson? depth (ofJson w) <;> simp [ofItems, itemsToJson?, h, ih]

theorem membersToJson?_eq_none {depth : Nat} {members : List (String × Json)} {m : String × Json}
    (hMem : m ∈ members) (hNone : toJson? depth (ofJson m.2) = none) :
    membersToJson? depth (ofMembers members) = none := by
  induction hMem with
  | head rest => simp [ofMembers, membersToJson?, hNone]
  | tail w _ ih => cases h : toJson? depth (ofJson w.2) <;> simp [ofMembers, membersToJson?, h, ih]

theorem itemsToJson?_ofItems {depth : Nat} {items : List Json}
    (hItems : ∀ v ∈ items, toJson? depth (ofJson v) = some v) :
    itemsToJson? depth (ofItems items) = some items := by
  induction items with
  | nil => rfl
  | cons v items ih =>
      obtain ⟨hFirst, hMore⟩ := List.forall_mem_cons.mp hItems
      simp [ofItems, itemsToJson?, hFirst, ih hMore]

theorem membersToJson?_ofMembers {depth : Nat} {members : List (String × Json)}
    (hMembers : ∀ m ∈ members, toJson? depth (ofJson m.2) = some m.2) :
    membersToJson? depth (ofMembers members) = some members := by
  induction members with
  | nil => rfl
  | cons m members ih =>
      obtain ⟨hFirst, hMore⟩ := List.forall_mem_cons.mp hMembers
      simp [ofMembers, membersToJson?, hFirst, ih hMore]

/-- The draft of a value has that value, where it may be nested as deep. -/
theorem toJson?_ofJson (v : Json) {depth : Nat} (hDepth : v.depth < depth) :
    toJson? depth (ofJson v) = some v := by
  induction v using Json.induct generalizing depth with
  | null => rfl
  | bool b => rfl
  | number n => rfl
  | string s => rfl
  | array items ih =>
      simp only [Json.depth] at hDepth
      have hInner : ∀ v ∈ items, v.depth < depth - 1 := fun v hMem => by
        have hLe := depth_le_of_mem hMem
        omega
      have hItems := itemsToJson?_ofItems fun v hMem => ih v hMem (hInner v hMem)
      have hDeep : ¬ depth ≤ 1 := by omega
      simp [ofJson, toJson?, hDeep, hItems]
  | object members ih =>
      simp only [Json.depth] at hDepth
      have hInner : ∀ m ∈ members, m.2.depth < depth - 1 := fun m hMem => by
        have hLe := depth_le_of_member hMem
        omega
      have hMembers := membersToJson?_ofMembers fun m hMem => ih m hMem (hInner m hMem)
      have hDeep : ¬ depth ≤ 1 := by omega
      simp [ofJson, toJson?, hDeep, hMembers]

/-- The draft of a value has none where the value is nested too deep. -/
theorem toJson?_ofJson_eq_none (v : Json) {depth : Nat} (hPos : 0 < depth)
    (hDepth : depth ≤ v.depth) : toJson? depth (ofJson v) = none := by
  induction v using Json.induct generalizing depth with
  | null => exact absurd hDepth (Nat.not_le.mpr hPos)
  | bool b => exact absurd hDepth (Nat.not_le.mpr hPos)
  | number n => exact absurd hDepth (Nat.not_le.mpr hPos)
  | string s => exact absurd hDepth (Nat.not_le.mpr hPos)
  | array items ih =>
      simp only [Json.depth] at hDepth
      by_cases hLast : depth ≤ 1
      · simp [ofJson, toJson?, hLast]
      · obtain ⟨v, hMem, hInner⟩ := @exists_mem_depth items (by omega)
        have hInnerNone : toJson? (depth - 1) (ofJson v) = none :=
          ih v hMem (by omega) (by omega)
        simp [ofJson, toJson?, itemsToJson?_eq_none hMem hInnerNone]
  | object members ih =>
      simp only [Json.depth] at hDepth
      by_cases hLast : depth ≤ 1
      · simp [ofJson, toJson?, hLast]
      · obtain ⟨m, hMem, hInner⟩ := @exists_member_depth members (by omega)
        have hInnerNone : toJson? (depth - 1) (ofJson m.2) = none :=
          ih m hMem (by omega) (by omega)
        simp [ofJson, toJson?, membersToJson?_eq_none hMem hInnerNone]

end Draft

theorem insertSorted_of_lt {k : String} {v : Json} {done : List (String × Json)}
    (h : ∀ m ∈ done, m.1 < k) : insertSorted k v done = done ++ [(k, v)] := by
  induction done with
  | nil => rfl
  | cons m done ih =>
      obtain ⟨hFirst, hMore⟩ := List.forall_mem_cons.mp h
      have hNot : ¬ k < m.1 := String.lt_asymm hFirst
      have hNe : k ≠ m.1 := fun hEq => String.lt_irrefl _ (hEq ▸ hFirst)
      rw [insertSorted, if_neg hNot, if_neg hNe, ih hMore, List.cons_append]

theorem sortedMembers_of_pairwise {done members : List (String × Json)}
    (hNames : (done ++ members).Pairwise fun m m' => m.1 < m'.1)
    (hMembers : ∀ m ∈ members, m.2.sorted = m.2) :
    sortedMembers done members = done ++ members := by
  induction members generalizing done with
  | nil => simp [sortedMembers]
  | cons m members ih =>
      obtain ⟨hFirst, hMore⟩ := List.forall_mem_cons.mp hMembers
      have hLast : ∀ m' ∈ done, m'.1 < m.1 := fun m' hMem =>
        (List.pairwise_append.mp hNames).2.2 m' hMem m List.mem_cons_self
      rw [sortedMembers, hFirst, insertSorted_of_lt hLast, ih (by simpa using hNames) hMore]
      simp

theorem sortedItems_eq {items : List Json} (h : ∀ v ∈ items, v.sorted = v) :
    sortedItems items = items := by
  induction items with
  | nil => rfl
  | cons v items ih =>
      obtain ⟨hFirst, hMore⟩ := List.forall_mem_cons.mp h
      rw [sortedItems, hFirst, ih hMore]

/-- What is in order stays as it is. -/
theorem Ordered.sorted_eq {v : Json} (ordered : Ordered v) : v.sorted = v := by
  induction ordered with
  | null => rfl
  | bool b => rfl
  | number n => rfl
  | string s => rfl
  | array _ ih => rw [sorted, sortedItems_eq ih]
  | @object members hNames _ ih =>
      rw [sorted, @sortedMembers_of_pairwise [] members hNames ih]
      rfl

/-- A value in order that is not nested too deep is read back from its compact text. -/
theorem parse?_compact {v : Json} (whole : Whole v) (ordered : Ordered v)
    (hDepth : v.depth < maxDepth) : parse? v.compact = some v := by
  simp only [parse?, ofText_compact whole, Draft.toJson?_ofJson v hDepth, Option.map_some,
    ordered.sorted_eq]

/-- Nothing is read of the compact text of a value that is nested too deep. -/
theorem parse?_compact_eq_none {v : Json} (whole : Whole v) (hDepth : maxDepth ≤ v.depth) :
    parse? v.compact = none := by
  simp only [parse?, ofText_compact whole, Draft.toJson?_ofJson_eq_none v (by decide) hDepth,
    Option.map_none]

end ChangeGate.Json
